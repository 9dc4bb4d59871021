import Unquote.Token.Format

/-! A run of the program on one token. The token is a word, or standard input without its last line
break. Standard input is an action that gives what it reads, and a run performs it only where the
token is read from it. -/

namespace Unquote

/-- What standard input still holds, or the cause for which it cannot be read. -/
abbrev StandardInput := Except String ByteArray

inductive Outcome where
  | printed (text : String)
  | rejected (error : SyntaxError)
  /-- Standard input is not UTF-8. -/
  | unreadable
  | broken (cause : String)
  /-- The command line asks for nothing that can be run. -/
  | misused
deriving DecidableEq

/-- The text without one line feed at its end, and without a carriage return before that. -/
def dropLineBreak (text : String) : String :=
  match text.toList.reverse with
  | '\n' :: '\r' :: rest | '\n' :: rest => .ofList rest.reverse
  | _ => text

namespace StandardInput

def text : StandardInput → Except Outcome String
  | .error cause => .error (.broken cause)
  | .ok bytes =>
    match String.fromUTF8? bytes with
    | some text => .ok text
    | none => .error .unreadable

def readAll : StateM StandardInput StandardInput :=
  modifyGet fun input => (input, input.map fun _ => .empty)

end StandardInput

namespace Outcome

section

variable {m : Type → Type} [Monad m]

/-- The text of a token. A lone hyphen stands for standard input, as no word does. -/
def readToken (input : m StandardInput) (token : Option String) : m (Except Outcome String) :=
  match token with
  | none | some "-" => return (← input).text.map dropLineBreak
  | some word => return .ok word

def ofText (kind : TokenKind) (format : Format) (text : String) : Outcome :=
  match Token.parse kind (Utf16.encode text) with
  | .ok token => printed (token.render format ++ "\n")
  | .error error => rejected error

def run (input : m StandardInput) (kind : TokenKind) (format : Format) (token : Option String) :
    m Outcome := do
  match ← readToken input token with
  | .ok text => return ofText kind format text
  | .error unread => return unread

end

def exitCode : Outcome → Nat
  | printed _ => 0
  | rejected _ => 1
  | unreadable | broken _ | misused => 2

def stdout : Outcome → String
  | printed text => text
  | _ => ""

def report? : Outcome → Option String
  | printed _ | misused => none
  | rejected error => some (error.label ++ ": " ++ error.title)
  | unreadable =>
    some "error: Failed to read token from stdin: stream did not contain valid UTF-8"
  | broken cause => some ("error: Failed to read token from stdin: " ++ cause)

end Outcome

end Unquote
