import Unquote.CodeUnit

/-! Code points as UTF-16 units. A code point above U+FFFF takes a pair of surrogates, and a
surrogate that is not in such a pair decodes to the replacement character. -/

namespace Unquote.Utf16

def highHalf (codePoint : Nat) : CodeUnit := .ofNat (0xD800 + (codePoint - 0x10000) / 0x400)

def lowHalf (codePoint : Nat) : CodeUnit := .ofNat (0xDC00 + (codePoint - 0x10000) % 0x400)

def joinHalves (high low : CodeUnit) : Nat :=
  0x10000 + (high.toNat - 0xD800) * 0x400 + (low.toNat - 0xDC00)

theorem highHalf_toNat {codePoint : Nat} (below : codePoint ≤ 0x10FFFF) :
    (highHalf codePoint).toNat = 0xD800 + (codePoint - 0x10000) / 0x400 := by
  simp only [highHalf, UInt16.toNat_ofNat']
  omega

theorem lowHalf_toNat (codePoint : Nat) :
    (lowHalf codePoint).toNat = 0xDC00 + (codePoint - 0x10000) % 0x400 := by
  simp only [lowHalf, UInt16.toNat_ofNat']
  omega

private theorem join_split (offset : Nat) :
    0x10000 + (0xD800 + offset / 0x400 - 0xD800) * 0x400 +
      (0xDC00 + offset % 0x400 - 0xDC00) = 0x10000 + offset := by
  omega

theorem joinHalves_halves {codePoint : Nat} (above : 0x10000 ≤ codePoint)
    (below : codePoint ≤ 0x10FFFF) :
    joinHalves (highHalf codePoint) (lowHalf codePoint) = codePoint := by
  have joined := join_split (codePoint - 0x10000)
  rw [← highHalf_toNat below, ← lowHalf_toNat] at joined
  exact joined.trans (Nat.add_sub_of_le above)

/-- The units of a code point. A surrogate code point is written as itself. -/
def encodeCodePoint (codePoint : Nat) : List CodeUnit :=
  if codePoint ≤ 0xFFFF then [.ofNat codePoint] else [highHalf codePoint, lowHalf codePoint]

def encodeChars (chars : List Char) : List CodeUnit :=
  chars.flatMap (encodeCodePoint ·.toNat)

def encode (text : String) : List CodeUnit := encodeChars text.toList

def width (char : Char) : Nat := if char.toNat ≤ 0xFFFF then 1 else 2

theorem length_encodeCodePoint (char : Char) :
    (encodeCodePoint char.toNat).length = width char := by
  unfold encodeCodePoint width
  split <;> rfl

theorem width_pos (char : Char) : 0 < width char := by
  unfold width
  split <;> decide

def replacement : Char := '\uFFFD'

def loneChar (unit : CodeUnit) : Char := unit.char?.getD replacement

/-- Puts the characters of the units, in reverse, in front of `done`. -/
def decodeOnto (done : List Char) : List CodeUnit → List Char
  | [] => done
  | [unit] => loneChar unit :: done
  | unit :: next :: rest =>
    if unit.isHighSurrogate ∧ next.isLowSurrogate then
      decodeOnto (.ofNat (joinHalves unit next) :: done) rest
    else
      decodeOnto (loneChar unit :: done) (next :: rest)

def decodeChars (units : List CodeUnit) : List Char := (decodeOnto [] units).reverse

/-- The text of the units, with the replacement character for every unpaired surrogate. -/
def decodeLossy (units : List CodeUnit) : String := .ofList (decodeChars units)

end Unquote.Utf16
