import Unquote.Checked.Basic
import Unquote.Reader

/-! Reading an escape with checked operations. Numbers are built digit by digit in words of sixteen
or thirty-two bits, and what an escape covers is cut out of the text by its offsets. A place in the
text is an index of the machine's own size, which no text is long enough to exhaust. -/

namespace Unquote.Checked

def hexValue? (unit : CodeUnit) : Checked (Option Nat) :=
  if 0x30 ≤ unit ∧ unit ≤ 0x39 then do
    return some (← sub unit.toNat 0x30)
  else if 0x41 ≤ unit ∧ unit ≤ 0x46 then do
    return some (← fit UInt16.size ((← sub unit.toNat 0x41) + 10))
  else if 0x61 ≤ unit ∧ unit ≤ 0x66 then do
    return some (← fit UInt16.size ((← sub unit.toNat 0x61) + 10))
  else return none

/-- Shifts the digits into a word of sixteen bits, unless one of the units is no digit. -/
def hexNumber? (total : Nat) : List CodeUnit → Checked (Option Nat)
  | [] => return some total
  | unit :: rest => do
    match ← hexValue? unit with
    | none => return none
    | some digit => hexNumber? ((← fit UInt16.size (total <<< 4)) ||| digit) rest

def octalNumber (total : Nat) : List CodeUnit → Checked Nat
  | [] => return total
  | unit :: rest => do
    let larger ← fit UInt16.size (total * 8)
    let digit ← sub unit.toNat 0x30
    octalNumber (← fit UInt16.size (larger + digit)) rest

/-- A number as a word of thirty-two bits, or the largest such word if it does not fit. -/
def saturate (number : Nat) : Nat := min number (UInt32.size - 1)

/-- Takes hexadecimal digits as long as there are any, and counts them. The word that they spell
stays at the largest once it is there. -/
def digitRun (total count : Nat) : List CodeUnit → Checked (Nat × Nat)
  | [] => return (total, count)
  | unit :: rest => do
    match ← hexValue? unit with
    | none => return (total, count)
    | some digit => digitRun (saturate (saturate (total * 16) + digit)) (count + 1) rest

def braced? (units : List CodeUnit) : Checked (Option (Nat × Nat)) :=
  if units.head? ≠ some .openBrace then return none
  else do
    let (number, count) ← digitRun 0 0 units.tail
    if count = 0 ∨ units.tail[count]? ≠ some .closeBrace then return none
    else return some (number, count + 2)

def splitCodePoint (codePoint : Nat) : Checked Decoded :=
  if codePoint ≤ 0xFFFF then do
    return .unit (.ofNat (← fit UInt16.size codePoint))
  else do
    let offset ← sub codePoint 0x10000
    let high ← fit UInt16.size (0xD800 + (← fit UInt16.size (offset >>> 10)))
    let low ← fit UInt16.size (0xDC00 + (← fit UInt16.size (offset &&& 0x3FF)))
    return .pair (.ofNat high) (.ofNat low)

def invalid (place : Nat) : SyntaxError := ⟨.invalidEscape, (Text.offset place).toNat⟩

def hexDigits (count : Nat) (reader : Reader) : Checked (Except SyntaxError Decoded × Reader) := do
  let letter ← sub reader.pos 1
  if reader.rest.length < count then return (.error (invalid letter), reader)
  else
    match ← hexNumber? 0 (reader.rest.take count) with
    | none => return (.error (invalid letter), reader)
    | some number => return (.ok (.unit (.ofNat number)), reader.advance count)

/-- Reads a Unicode escape, just after its letter. What is no number between braces is taken for
the form of four digits. -/
def unicode (reader : Reader) : Checked (Except SyntaxError Decoded × Reader) := do
  let letter ← sub reader.pos 1
  match ← braced? reader.rest with
  | none => hexDigits 4 reader
  | some (codePoint, width) =>
    if maxCodePoint < codePoint then return (.error (invalid letter), reader)
    else
      return (.ok (← splitCodePoint codePoint),
        { reader with
          pos := reader.pos + width, features := reader.features ∪ .ofCodePointEscape })

def octal (legacy : Legacy) (limit : Nat) (reader : Reader) :
    Checked (Except SyntaxError Decoded × Reader) := do
  let first ← sub reader.pos 1
  let noted := { reader with features := reader.features ∪ .ofOctalEscape }
  if legacy = .refused then return (.error (invalid first), noted)
  else
    let last := min (first + limit) (first + 1 + reader.rest.length)
    let near ← slice reader.text first last
    let count := (near.takeWhile (·.isOctalDigit)).length
    let number ← octalNumber 0 (← slice near 0 count)
    return (.ok (.unit (.ofNat number)), noted.advance (← sub count 1))

def decode (legacy : Legacy) (reader : Reader) : Checked (Except SyntaxError Decoded × Reader) :=
  match reader.current? with
  | none => do
    let backslash ← sub reader.pos 1
    return (.error ⟨.trailingBackslash, (Text.offset backslash).toNat⟩, reader)
  | some unit =>
    let passed := reader.advance 1
    match Lead.ofUnit unit with
    | .control named => return (.ok (.unit named.code), passed)
    | .hex => hexDigits 2 passed
    | .unicode => unicode passed
    | .lineBreak first =>
      if first = .carriageReturn ∧ passed.current? = some .lineFeed then
        return (.ok .nothing, passed.advance 1)
      else return (.ok .nothing, passed)
    | .octal digit =>
      if digit.val = 0 ∧ ¬passed.current?.any (·.isDigit) then return (.ok (.unit 0), passed)
      else octal legacy (if digit.val ≤ 3 then 3 else 2) passed
    | .eight | .nine =>
      if legacy = .refused then return (.error (invalid reader.pos), passed)
      else
        return (.ok (.unit unit), { passed with features := passed.features ∪ .ofOctalEscape })
    | .plain => return (.ok (.unit unit), passed)

/-- Takes the unit at the reader's place for a backslash, reads the escape after it, and keeps its
units with the slice that they come from. -/
def scan (legacy : Legacy) (reader : Reader) :
    Checked (Except SyntaxError (List TracedUnit) × Reader) := do
  match ← decode legacy (reader.advance 1) with
  | (.error fault, passed) => return (.error fault, passed)
  | (.ok decoded, passed) =>
    let source ← slice reader.text reader.pos passed.pos
    let added := decoded.trace reader.offset source
    return (.ok added, { passed with units := reader.units ++ added })

end Unquote.Checked
