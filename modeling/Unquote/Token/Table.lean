import Unquote.Text.Blank
import Unquote.Text.Quoted
import Unquote.Token.Basic

/-! Tokens as a table with a row for each unit. Characters and sources are quoted, so a row is one
line whatever the token holds. -/

namespace Unquote

namespace Token.Table

def header : String := "START  END    CODE    CHAR      SOURCE          SURROGATE"

def shownChar (unit : TracedUnit) : List Char :=
  match unit.char? with
  | some char => Text.quoted '\'' [char]
  | none => ['-']

/-- The line of a unit. Each column but the last is padded, and one that is too long moves the
columns after it. -/
def row (unit : TracedUnit) : List Char :=
  Text.padEnd 6 (Text.decimal unit.start) ++ [' '] ++
    Text.padEnd 6 (Text.decimal unit.stop) ++ [' '] ++
    "0x".toList ++ Text.hexadecimalPadded 4 unit.code.toNat ++ [' ', ' '] ++
    Text.padEnd 9 (shownChar unit) ++ [' '] ++
    Text.padEnd 15 (Text.quoted '"' unit.sourceText.toList) ++ [' '] ++
    ((unit.half.map Half.name).getD "").toList

/-- The header and the rows, less the white space at the end of the last. -/
def grid (units : List TracedUnit) : List Char :=
  Text.trimEnd (['\n'].intercalate (header.toList :: units.map row))

def summary : Token → String
  | .string literal =>
    "codePointEscape: " ++ Text.truth literal.features.codePointEscape ++
      ", lineTerminator: " ++ Text.truth literal.features.lineTerminator ++
      ", octalEscape: " ++ Text.truth literal.features.octalEscape
  | .template inner => "kind: " ++ inner.kind.name

end Token.Table

def Token.table (token : Token) : String :=
  .ofList (Table.grid token.units) ++ "\n" ++ Table.summary token

end Unquote
