import Unquote.Escape.Basic

/-! Reading the escape that units begin with, whatever its form. A run of octal digits, and a
carriage return before a line feed, are read as far as they go. -/

namespace Unquote

namespace Escape

def readHex? : List CodeUnit → Option Escape
  | high :: low :: _ => do
    let high ← HexDigit.ofUnit? high
    let low ← HexDigit.ofUnit? low
    return .hex high low
  | _ => none

def readFour? : List CodeUnit → Option Escape
  | first :: second :: third :: fourth :: _ => do
    let first ← HexDigit.ofUnit? first
    let second ← HexDigit.ofUnit? second
    let third ← HexDigit.ofUnit? third
    let fourth ← HexDigit.ofUnit? fourth
    return .unicode first second third fourth
  | _ => none

theorem inRange_of_numberUpTo {digits : List HexDigit}
    (small : HexDigit.numberUpTo (maxCodePoint + 1) digits ≤ maxCodePoint) :
    HexDigit.number digits ≤ maxCodePoint := by
  rw [HexDigit.numberUpTo_eq] at small
  omega

/-- Reads the digits and the closing brace of a code point escape. The number may have any
count of digits, but it has to be a code point. -/
def readBraced? (units : List CodeUnit) : Option Escape :=
  let digits := HexDigit.run units
  if nonempty : digits = [] then none
  else if (units.drop digits.length).head? ≠ some .closeBrace then none
  else if small : HexDigit.numberUpTo (maxCodePoint + 1) digits ≤ maxCodePoint then
    some (.codePoint digits nonempty (inRange_of_numberUpTo small))
  else none

def readUnicode? (units : List CodeUnit) : Option Escape :=
  match units with
  | [] => none
  | first :: rest => if first = .openBrace then readBraced? rest else readFour? units

/-- A zero is an octal escape only if a decimal digit follows. -/
def readOctal (first : OctalDigit) (rest : List CodeUnit) : Escape :=
  if first = 0 ∧ ¬ rest.head?.any (·.isDigit) then .nul
  else .octal first (OctalDigit.run first.room rest) (OctalDigit.length_run_le first.room rest)

def read? : List CodeUnit → Option Escape
  | [] => none
  | unit :: rest =>
    match plain : Lead.ofUnit unit with
    | .control named => some (.control named)
    | .hex => readHex? rest
    | .unicode => readUnicode? rest
    | .lineBreak first => some (.lineContinuation (first.extend rest))
    | .octal first => some (readOctal first rest)
    | .eight => some .eight
    | .nine => some .nine
    | .plain => some (.identity unit plain)

end Escape

end Unquote
