/-! The words of a command line, told apart by their form alone. -/

namespace Unquote

inductive Argument where
  | plain (word : String)
  /-- The format option, with the value that follows it. -/
  | format (value : Option String)
  | version
  /-- The two hyphens that end the options. -/
  | terminator
  | unknown
deriving DecidableEq

namespace Argument

/-- A word that begins with a hyphen is an option, a lone hyphen excepted. -/
def ofWord (word : String) : Argument :=
  match word.toList with
  | ['-'] => plain word
  | '-' :: 'V' :: _ => version
  | '-' :: '-' :: name =>
    if name = [] then terminator
    else if name = "version".toList then version
    else if name = "format".toList then format none
    else match "format=".toList.isPrefixOf? name with
      | some value => format (some (.ofList value))
      | none => unknown
  | '-' :: _ => unknown
  | _ => plain word

/-- The format option takes the next word along, whatever it is, and after two hyphens every word
is plain. -/
def ofWords : List String → List Argument
  | [] => []
  | word :: rest =>
    match ofWord word with
    | terminator => terminator :: rest.map plain
    | format none =>
      match rest with
      | [] => [format none]
      | value :: rest => format (some value) :: ofWords rest
    | argument => argument :: ofWords rest

end Argument

end Unquote
