import Unquote.Checked.Escape
import Unquote.Token.Basic

/-! Reading a whole token with checked operations: a reader that goes once through a loop for each
construct, and that may not go through it more often than the text has units. -/

namespace Unquote

inductive Delivered where
  | literal (quote : Quote) (units : List TracedUnit) (features : Features)
  | template (kind : TemplateKind) (units : List TracedUnit)
deriving DecidableEq

def Token.delivered : Token → Delivered
  | string literal => .literal literal.quote literal.units literal.features
  | template inner => .template inner.kind inner.units

inductive Opened where
  | literal (quote : Quote)
  | template (opening : Opening)
deriving DecidableEq

def Opened.ofUnit? (kind : TokenKind) (unit : CodeUnit) : Option Opened :=
  match kind with
  | .string => (Quote.ofUnit? unit).map literal
  | .template => (Opening.ofUnit? unit).map template

namespace Checked

inductive Turn where
  | next (reader : Reader)
  | done (outcome : Except SyntaxError Delivered)

def keep (code : CodeUnit) (width : Nat) (reader : Reader) : Checked Reader := do
  let source ← slice reader.text reader.pos (reader.pos + width)
  return { reader with
    pos := reader.pos + width, units := reader.units ++ [⟨code, reader.offset, source, none⟩] }

def escape (legacy : Legacy) (reader : Reader) : Checked Turn := do
  match ← scan legacy reader with
  | (.error fault, _) => return .done (.error fault)
  | (.ok _, passed) => return .next passed

/-- Makes sure that nothing follows a closing delimiter that the reader has just passed. -/
def close (delivered : Delivered) (reader : Reader) : Turn :=
  if reader.atEnd then .done (.ok delivered) else .done (.error ⟨.pastEnd, reader.offset⟩)

def literalTurn (quote : Quote) (reader : Reader) : Checked Turn :=
  match reader.current? with
  | none => return .done (.error ⟨.unterminated, 0⟩)
  | some unit =>
    if unit = quote.unit then
      return close (.literal quote reader.units reader.features) (reader.advance 1)
    else if unit = .backslash then escape .allowed reader
    else if unit = .lineFeed ∨ unit = .carriageReturn then
      return .done (.error ⟨.lineTermination, reader.offset⟩)
    else if unit.isSeparator then do
      return .next
        (← keep unit 1 { reader with features := reader.features ∪ .ofLineTerminator })
    else return .next (← keep unit 1 reader)

def templateTurn (opening : Opening) (reader : Reader) : Checked Turn :=
  match reader.current? with
  | none => return .done (.error ⟨.unterminated, 0⟩)
  | some unit =>
    if unit = .backtick then
      return close (.template (.of opening .backtick) reader.units) (reader.advance 1)
    else if unit = .dollar ∧ reader.peek? 1 = some .openBrace then
      return close (.template (.of opening .substitution) reader.units) (reader.advance 2)
    else if unit = .backslash then escape .refused reader
    else if unit = .carriageReturn ∧ reader.peek? 1 = some .lineFeed then do
      return .next (← keep .lineFeed 2 reader)
    else return .next (← keep unit 1 reader)

def turn : Opened → Reader → Checked Turn
  | .literal quote => literalTurn quote
  | .template opening => templateTurn opening

/-- Goes through the loop until a turn ends it, at most `turns` times. -/
def run (opened : Opened) : Nat → Reader → Checked (Except SyntaxError Delivered)
  | 0, _ => throw .turns
  | turns + 1, reader => do
    match ← turn opened reader with
    | .next passed => run opened turns passed
    | .done outcome => return outcome

def begin (text : List CodeUnit) : Reader := (Reader.start text .empty).advance 1

/-- Reads a whole token of one kind, in at most as many turns as the text has units. -/
def parse (kind : TokenKind) (text : List CodeUnit) : Checked (Except SyntaxError Delivered) :=
  match text.head?.bind (Opened.ofUnit? kind) with
  | none => return .error ⟨.malformedDelimiter kind, 0⟩
  | some opened => run opened text.length (begin text)

end Checked

end Unquote
