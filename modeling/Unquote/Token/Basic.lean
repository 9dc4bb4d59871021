import Unquote.StringLiteral
import Unquote.Template

/-! Tokens of either kind. -/

namespace Unquote

inductive Token where
  | string (literal : StringLiteral)
  | template (inner : Template)
deriving DecidableEq

namespace Token

def kind : Token → TokenKind
  | string _ => .string
  | template _ => .template

def parse (kind : TokenKind) (text : List CodeUnit) : Except SyntaxError Token :=
  match kind with
  | .string => (StringLiteral.parse text).map string
  | .template => (Template.parse text).map template

theorem kind_of_parse {kind : TokenKind} {text : List CodeUnit} {token : Token}
    (read : parse kind text = .ok token) : token.kind = kind := by
  cases kind with
  | string =>
    cases found : StringLiteral.parse text <;> simp [parse, found, Except.map] at read
    subst read
    rfl
  | template =>
    cases found : Template.parse text <;> simp [parse, found, Except.map] at read
    subst read
    rfl

def units : Token → List TracedUnit
  | string literal => literal.units
  | template inner => inner.units

end Token

end Unquote
