import Unquote.Utf16

/-! What one construct of a token stands for: no unit, one unit, or the two halves of a
supplementary code point. -/

namespace Unquote

inductive Decoded where
  /-- The value of a line continuation. -/
  | nothing
  | unit (code : CodeUnit)
  | pair (high low : CodeUnit)
deriving DecidableEq

namespace Decoded

def units : Decoded → List CodeUnit
  | nothing => []
  | unit code => [code]
  | pair high low => [high, low]

/-- A code point up to U+FFFF is one unit, even where it is a surrogate. -/
def ofCodePoint (codePoint : Nat) : Decoded :=
  if codePoint ≤ 0xFFFF then .unit (.ofNat codePoint)
  else .pair (Utf16.highHalf codePoint) (Utf16.lowHalf codePoint)

theorem units_ofCodePoint (codePoint : Nat) :
    (ofCodePoint codePoint).units = Utf16.encodeCodePoint codePoint := by
  unfold ofCodePoint Utf16.encodeCodePoint
  split <;> rfl

end Decoded

end Unquote
