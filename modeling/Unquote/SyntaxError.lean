import Unquote.Text.Plain
import Unquote.Text.Span

/-! What makes a token unreadable, and where. The first fault ends the reading, so an error
holds one fault, the code and message of which are fixed. -/

namespace Unquote

inductive TokenKind where
  | string
  | template
deriving DecidableEq

def TokenKind.description : TokenKind → String
  | .string => "string literal"
  | .template => "template token"

inductive Fault where
  /-- The token does not open with a delimiter of its kind. -/
  | malformedDelimiter (expected : TokenKind)
  /-- The text ends before the closing delimiter. -/
  | unterminated
  /-- The text ends with a backslash that has nothing to escape. -/
  | trailingBackslash
  /-- Hexadecimal digits are missing, a code point is out of range, or the escape is a legacy
  one where those are refused. -/
  | invalidEscape
  /-- A line feed or carriage return stands unescaped in a string literal. -/
  | lineTermination
  /-- Something follows the closing delimiter. -/
  | pastEnd
deriving DecidableEq

namespace Fault

def code : Fault → Nat
  | malformedDelimiter .string => 1001
  | malformedDelimiter .template => 1002
  | unterminated => 1003
  | trailingBackslash => 1004
  | invalidEscape => 1005
  | lineTermination => 1006
  | pastEnd => 1007

def message : Fault → String
  | malformedDelimiter .string => "Expected single or double quotation mark"
  | malformedDelimiter .template => "Expected backtick or closing brace"
  | unterminated => "Unterminated token"
  | trailingBackslash => "Unexpected trailing backslash"
  | invalidEscape => "Invalid escape sequence"
  | lineTermination => "Unexpected line termination"
  | pastEnd => "Unexpected character past end of token"

end Fault

/-- A fault at an offset in the token, counted in UTF-16 units. -/
structure SyntaxError where
  fault : Fault
  pos : Nat
deriving DecidableEq

namespace SyntaxError

def span (error : SyntaxError) : Text.Span := ⟨error.pos, 1⟩

def title (error : SyntaxError) : String :=
  error.fault.message ++ " at position " ++ .ofList (Text.decimal error.pos)

def label (error : SyntaxError) : String := "CU" ++ .ofList (Text.decimal error.fault.code)

end SyntaxError

end Unquote
