import Unquote.Escape.Attempt
import Unquote.TracedUnit

/-! Reading escapes one at a time. A reader keeps its place in the text, the features noted so far
and the units it has read, and goes on after a fault from where the fault left it. Its place is any
number, but what it reports of a place is an offset of 32 bits. -/

namespace Unquote

structure Reader where
  text : List CodeUnit
  /-- The place of the next unit. It may lie past the end of the text. -/
  pos : Nat
  features : Features
  units : List TracedUnit

namespace Reader

def start (text : List CodeUnit) (features : Features) : Reader := ⟨text, 0, features, []⟩

def offset (reader : Reader) : Nat := (Text.offset reader.pos).toNat

theorem offset_eq_pos {reader : Reader} (small : reader.pos < UInt32.size) :
    reader.offset = reader.pos :=
  Text.offset_toNat small

def peek? (reader : Reader) (ahead : Nat) : Option CodeUnit := reader.text[reader.pos + ahead]?

def current? (reader : Reader) : Option CodeUnit := reader.peek? 0

def advance (reader : Reader) (count : Nat) : Reader := { reader with pos := reader.pos + count }

def rest (reader : Reader) : List CodeUnit := reader.text.drop reader.pos

def slice (reader : Reader) (first last : Nat) : List CodeUnit :=
  (reader.text.drop first).take (last - first)

def atEnd (reader : Reader) : Bool := reader.text.length ≤ reader.pos

theorem atEnd_iff_rest_nil (reader : Reader) : reader.atEnd ↔ reader.rest = [] := by
  simp [atEnd, rest]

/-- Reads the escape at a place just after a backslash. A fault lies at the last unit passed, or
at the backslash if none was. -/
def decode (legacy : Legacy) (reader : Reader) : Except SyntaxError Decoded × Reader :=
  let attempt := Escape.attempt legacy reader.rest
  let passed := { reader with
    pos := reader.pos + attempt.width, features := reader.features ∪ attempt.features }
  match attempt.outcome with
  | .ok escape => (.ok escape.value, passed)
  | .error fault => (.error ⟨fault, (Text.offset passed.pos - 1).toNat⟩, passed)

/-- Takes the unit at the reader's place for a backslash, reads the escape after it, and keeps
its units. The answer holds the units that were added. -/
def scan (legacy : Legacy) (reader : Reader) : Except SyntaxError (List TracedUnit) × Reader :=
  match (reader.advance 1).decode legacy with
  | (.error fault, passed) => (.error fault, passed)
  | (.ok decoded, passed) =>
    let added := decoded.trace reader.offset (reader.slice reader.pos passed.pos)
    (.ok added, { passed with units := reader.units ++ added })

end Reader

end Unquote
