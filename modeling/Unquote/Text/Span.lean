import Unquote.Utf16

/-! Stretches of text counted in UTF-16 units, and the UTF-8 bytes that they cover. An offset
between the halves of a pair lies inside one character: as a start it falls back to the beginning
of the character, as an end it moves on to its end. -/

namespace Unquote.Text

/-- The offset that is reported for a place in a text. Offsets have 32 bits, so from 2 ^ 32 on they
begin again at zero. -/
def offset (place : Nat) : UInt32 := .ofNat place

theorem offset_toNat {place : Nat} (small : place < UInt32.size) : (offset place).toNat = place := by
  rw [offset, UInt32.toNat_ofNat']
  exact Nat.mod_eq_of_lt small

theorem offset_succ_sub_one (place : Nat) : offset (place + 1) - 1 = offset place := by
  rw [offset, UInt32.ofNat_add]
  exact UInt32.add_sub_cancel ..

theorem offset_sub_one_toNat {place : Nat} (after : 0 < place) (small : place ≤ UInt32.size) :
    (offset place - 1).toNat = place - 1 := by
  obtain ⟨before, rfl⟩ := Nat.exists_eq_add_one.2 after
  rw [offset_succ_sub_one, Nat.add_sub_cancel]
  exact offset_toNat small

structure Span where
  start : Nat
  length : Nat
deriving DecidableEq

def Span.stop (span : Span) : Nat := span.start + span.length

/-- The bytes of the whole characters that fit in the first `pos` units, added to `bytes`. -/
def floorFrom (bytes : Nat) : List Char → Nat → Nat
  | [], _ => bytes
  | char :: rest, pos =>
    if Utf16.width char ≤ pos then
      floorFrom (bytes + char.utf8Size) rest (pos - Utf16.width char)
    else
      bytes

def ceilFrom (bytes : Nat) : List Char → Nat → Nat
  | [], _ => bytes
  | char :: rest, pos =>
    if pos = 0 then bytes
    else ceilFrom (bytes + char.utf8Size) rest (pos - Utf16.width char)

theorem floorFrom_eq_add (bytes : Nat) (chars : List Char) (pos : Nat) :
    floorFrom bytes chars pos = bytes + floorFrom 0 chars pos := by
  induction chars generalizing bytes pos with
  | nil => rfl
  | cons char rest ih =>
    simp only [floorFrom]
    split
    · rw [ih, ih (0 + _)]
      omega
    · rfl

theorem ceilFrom_eq_add (bytes : Nat) (chars : List Char) (pos : Nat) :
    ceilFrom bytes chars pos = bytes + ceilFrom 0 chars pos := by
  induction chars generalizing bytes pos with
  | nil => rfl
  | cons char rest ih =>
    simp only [ceilFrom]
    split
    · rfl
    · rw [ih, ih (0 + _)]
      omega

/-- The UTF-8 offset of a UTF-16 offset: the bytes of the longest run of whole characters that
takes at most `pos` units. -/
def utf8Offset (text : String) (pos : Nat) : Nat := floorFrom 0 text.toList pos

def utf8Ceiling (text : String) (pos : Nat) : Nat := ceilFrom 0 text.toList pos

/-- The bytes of the characters that a span touches, as a start and an end. -/
def Span.utf8Range (span : Span) (text : String) : Nat × Nat :=
  let first := utf8Offset text span.start
  (first, max (utf8Ceiling text span.stop) first)

end Unquote.Text
