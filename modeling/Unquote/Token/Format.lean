import Unquote.Token.Record
import Unquote.Token.Table

/-! The two forms in which a token is printed. -/

namespace Unquote

inductive Format where
  | table
  | json
deriving DecidableEq

def Format.ofName? : String → Option Format
  | "table" => some .table
  | "json" => some .json
  | _ => none

/-- The text of a token in a format, without a line break at its end. -/
def Token.render (token : Token) : Format → String
  | .table => token.table
  | .json => token.record.pretty

end Unquote
