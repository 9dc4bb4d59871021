import Unquote.CommandLine.Command
import Unquote.Outcome

/-! Runs of the program on the words of its command line. -/

namespace Unquote

def Command.run {m : Type → Type} [Monad m] (input : m StandardInput) : Command → m Outcome
  | version => return .printed "cunits 0.1.0\n"
  | decode kind format token => Outcome.run input kind format token

namespace Outcome

def ofCommandLine {m : Type → Type} [Monad m] (input : m StandardInput) (words : List String) :
    m Outcome :=
  match Command.parse? words with
  | some command => command.run input
  | none => return misused

def ofWords (words : List String) (bytes : ByteArray) : Outcome :=
  ((ofCommandLine StandardInput.readAll words).run (.ok bytes)).1

end Outcome

end Unquote
