import Unquote.Text.Plain

/-! JSON values and their text: an indent of two spaces, a member a line, and nothing escaped in a
string but what has to be. -/

namespace Unquote

inductive Json where
  | null
  | bool (value : Bool)
  | number (value : Nat)
  | string (value : String)
  | array (items : List Json)
  /-- Members keep their order. -/
  | object (members : List (String × Json))

namespace Json

def escapeChar (char : Char) : List Char :=
  if char = '"' then ['\\', '"']
  else if char = '\\' then ['\\', '\\']
  else if char = '\x08' then ['\\', 'b']
  else if char = '\x0c' then ['\\', 'f']
  else if char = '\n' then ['\\', 'n']
  else if char = '\r' then ['\\', 'r']
  else if char = '\t' then ['\\', 't']
  else if char.toNat < 0x20 then '\\' :: 'u' :: Text.hexadecimalPadded 4 char.toNat
  else [char]

def stringText (value : String) : String :=
  .ofList ('"' :: value.toList.flatMap escapeChar ++ ['"'])

def newline (depth : Nat) : String := .ofList ('\n' :: List.replicate (2 * depth) ' ')

mutual

/-- Writes a value after `out`. Its first line stands where `out` ends, and the others are
indented for `depth`. -/
def write (out : String) (depth : Nat) : Json → String
  | null => out ++ "null"
  | bool value => out ++ Text.truth value
  | number value => out ++ .ofList (Text.decimal value)
  | string value => out ++ stringText value
  | array [] => out ++ "[]"
  | array (first :: rest) =>
    writeItems (write (out ++ "[" ++ newline (depth + 1)) (depth + 1) first) depth rest
  | object [] => out ++ "\x7b\x7d"
  | object ((key, first) :: rest) =>
    writeMembers (write (out ++ "\x7b" ++ newline (depth + 1) ++ stringText key ++ ": ")
      (depth + 1) first) depth rest

def writeItems (out : String) (depth : Nat) : List Json → String
  | [] => out ++ newline depth ++ "]"
  | item :: rest =>
    writeItems (write (out ++ "," ++ newline (depth + 1)) (depth + 1) item) depth rest

def writeMembers (out : String) (depth : Nat) : List (String × Json) → String
  | [] => out ++ newline depth ++ "\x7d"
  | (key, value) :: rest =>
    writeMembers (write (out ++ "," ++ newline (depth + 1) ++ stringText key ++ ": ")
      (depth + 1) value) depth rest

end

def pretty (json : Json) : String := json.write "" 0

end Json

end Unquote
