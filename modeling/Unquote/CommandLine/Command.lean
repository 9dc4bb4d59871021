import Unquote.CommandLine.Argument
import Unquote.Token.Format

/-! What a command line asks for: a subcommand for each kind of token, an optional token, and a
format that may stand before or after the subcommand. Requests for help are left out. -/

namespace Unquote

inductive Command where
  | version
  | decode (kind : TokenKind) (format : Format) (token : Option String)
deriving DecidableEq

namespace Command

def kindOfName? : String → Option TokenKind
  | "string" => some .string
  | "template" => some .template
  | _ => none

/-- A format option is given at most once on either side of the subcommand. -/
def addFormat (given : Option Format) (value : Option String) : Option Format := do
  let format ← Format.ofName? (← value)
  if given.isSome then none else some format

/-- Reads the arguments after a subcommand. A format given here wins over one given before. -/
def ofTail (kind : TokenKind) (before after : Option Format) (token : Option String) :
    List Argument → Option Command
  | [] => some (.decode kind ((after <|> before).getD .table) token)
  | .plain word :: rest =>
    if token.isSome then none else ofTail kind before after (some word) rest
  | .format value :: rest => do
    let format ← addFormat after value
    ofTail kind before (some format) token rest
  | .terminator :: rest => ofTail kind before after token rest
  | .version :: _ | .unknown :: _ => none

/-- Reads the arguments from the first on. A request for the version ends the reading. -/
def ofArguments (before : Option Format) : List Argument → Option Command
  | [] | .terminator :: _ | .unknown :: _ => none
  | .plain word :: rest => do
    let kind ← kindOfName? word
    ofTail kind before none none rest
  | .format value :: rest => do
    let format ← addFormat before value
    ofArguments (some format) rest
  | .version :: _ => some .version

def parse? (words : List String) : Option Command := ofArguments none (Argument.ofWords words)

end Command

end Unquote
