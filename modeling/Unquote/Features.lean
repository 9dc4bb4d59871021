/-! The features of a string literal that some contexts forbid. They are reported and never
enforced, so they only accumulate. -/

namespace Unquote

structure Features where
  /-- A braced code point escape was used. -/
  codePointEscape : Bool
  /-- A line or paragraph separator stood unescaped. -/
  lineTerminator : Bool
  /-- An octal escape was used, or an escaped eight or nine. -/
  octalEscape : Bool
deriving DecidableEq

namespace Features

def empty : Features := ⟨false, false, false⟩
def ofCodePointEscape : Features := ⟨true, false, false⟩
def ofLineTerminator : Features := ⟨false, true, false⟩
def ofOctalEscape : Features := ⟨false, false, true⟩

instance : EmptyCollection Features := ⟨empty⟩

def union (left right : Features) : Features :=
  ⟨left.codePointEscape || right.codePointEscape, left.lineTerminator || right.lineTerminator,
    left.octalEscape || right.octalEscape⟩

instance : Union Features := ⟨union⟩

/-- The features as three bits, the lowest for the code point escape. -/
def bits (features : Features) : Nat :=
  features.codePointEscape.toNat + 2 * features.lineTerminator.toNat +
    4 * features.octalEscape.toNat

theorem bits_lt (features : Features) : features.bits < 8 := by
  rcases features with ⟨_ | _, _ | _, _ | _⟩ <;> decide

theorem testBit_bits (features : Features) (place : Nat) :
    features.bits.testBit place =
      [features.codePointEscape, features.lineTerminator, features.octalEscape].getD place
        false := by
  match place with
  | 0 | 1 | 2 => rcases features with ⟨_ | _, _ | _, _ | _⟩ <;> rfl
  | more + 3 =>
    have small : features.bits / 2 / 2 / 2 = 0 := by
      have := features.bits_lt
      omega
    rw [Nat.testBit_succ, Nat.testBit_succ, Nat.testBit_succ, small, Nat.zero_testBit]
    rfl

def ofBits (bits : Nat) : Features := ⟨bits.testBit 0, bits.testBit 1, bits.testBit 2⟩

theorem ofBits_bits (features : Features) : ofBits features.bits = features := by
  rcases features with ⟨_ | _, _ | _, _ | _⟩ <;> decide

/-- Fails if any bit is set that stands for no feature. -/
def ofBits? (bits : Nat) : Option Features := if bits < 8 then some (ofBits bits) else none

end Features

end Unquote
