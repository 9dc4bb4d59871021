import Unquote.CommandLine.Outcome

/-! The program. -/

namespace Unquote

partial def readAll (stream : IO.FS.Stream) (done : ByteArray) : IO ByteArray := do
  let bytes ← stream.read 65536
  if bytes.isEmpty then return done else readAll stream (done ++ bytes)

def readInput : IO StandardInput := do
  try
    return .ok (← readAll (← IO.getStdin) .empty)
  catch cause =>
    return .error (toString cause)

end Unquote

def main (words : List String) : IO UInt32 := do
  let outcome ← Unquote.Outcome.ofCommandLine Unquote.readInput words
  (← IO.getStdout).putStr outcome.stdout
  match outcome.report? with
  | some report => IO.eprintln report
  | none => pure ()
  return outcome.exitCode.toUInt32
