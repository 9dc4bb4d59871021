/-! UTF-16 code units, those that the grammar of tokens names, and its classes of them. Digits are
ASCII only, so a fullwidth digit is a unit like any other. -/

namespace Unquote

/-- A sixteen-bit unit of text. A surrogate is a unit like any other, paired or not. -/
abbrev CodeUnit := UInt16

namespace CodeUnit

abbrev lineFeed : CodeUnit := 0x0A
abbrev carriageReturn : CodeUnit := 0x0D
abbrev doubleQuote : CodeUnit := 0x22
abbrev dollar : CodeUnit := 0x24
abbrev singleQuote : CodeUnit := 0x27
abbrev backslash : CodeUnit := 0x5C
abbrev backtick : CodeUnit := 0x60
abbrev openBrace : CodeUnit := 0x7B
abbrev closeBrace : CodeUnit := 0x7D
abbrev lineSeparator : CodeUnit := 0x2028
abbrev paragraphSeparator : CodeUnit := 0x2029

def isLineBreak (unit : CodeUnit) : Bool :=
  unit = lineFeed ∨ unit = carriageReturn ∨ unit = lineSeparator ∨ unit = paragraphSeparator

/-- The two line terminators that may stand unescaped in a quoted string. -/
def isSeparator (unit : CodeUnit) : Bool :=
  unit = lineSeparator ∨ unit = paragraphSeparator

def isDigit (unit : CodeUnit) : Bool := 0x30 ≤ unit ∧ unit ≤ 0x39

def isOctalDigit (unit : CodeUnit) : Bool := 0x30 ≤ unit ∧ unit ≤ 0x37

def isHighSurrogate (unit : CodeUnit) : Bool := 0xD800 ≤ unit ∧ unit ≤ 0xDBFF

def isLowSurrogate (unit : CodeUnit) : Bool := 0xDC00 ≤ unit ∧ unit ≤ 0xDFFF

def isSurrogate (unit : CodeUnit) : Bool := 0xD800 ≤ unit ∧ unit ≤ 0xDFFF

theorem isSurrogate_eq (unit : CodeUnit) :
    unit.isSurrogate = (unit.isHighSurrogate || unit.isLowSurrogate) := by
  simp only [isSurrogate, isHighSurrogate, isLowSurrogate, UInt16.le_iff_toNat_le,
    UInt16.reduceToNat]
  grind

def hexValue? (unit : CodeUnit) : Option Nat :=
  if 0x30 ≤ unit ∧ unit ≤ 0x39 then some (unit.toNat - 0x30)
  else if 0x41 ≤ unit ∧ unit ≤ 0x46 then some (unit.toNat - 0x37)
  else if 0x61 ≤ unit ∧ unit ≤ 0x66 then some (unit.toNat - 0x57)
  else none

theorem hexValue?_lt {unit : CodeUnit} {value : Nat} (found : unit.hexValue? = some value) :
    value < 16 := by
  simp only [hexValue?, UInt16.le_iff_toNat_le, UInt16.reduceToNat] at found
  grind

/-- The character of a unit that stands alone. A surrogate has none. -/
def char? (unit : CodeUnit) : Option Char :=
  if unit.isSurrogate then none else some (.ofNat unit.toNat)

end CodeUnit

end Unquote
