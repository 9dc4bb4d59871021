import Unquote.CodeUnit

/-! Digits as they are written, and the numbers that runs of them spell. A hexadecimal digit
keeps its case; an octal digit has one spelling, so it is its value. -/

namespace Unquote

/-- A written hexadecimal digit. Two digits of equal value may differ in case. -/
structure HexDigit where
  unit : CodeUnit
  isHex : unit.hexValue?.isSome
deriving DecidableEq

namespace HexDigit

def ofUnit? (unit : CodeUnit) : Option HexDigit :=
  if isHex : unit.hexValue?.isSome then some ⟨unit, isHex⟩ else none

theorem ofUnit?_unit (digit : HexDigit) : ofUnit? digit.unit = some digit := by
  simp [ofUnit?, digit.isHex]

theorem unit_of_ofUnit? {unit : CodeUnit} {digit : HexDigit} (found : ofUnit? unit = some digit) :
    digit.unit = unit := by
  unfold ofUnit? at found
  split at found
  · cases found; rfl
  · contradiction

def value (digit : HexDigit) : Nat := digit.unit.hexValue?.get digit.isHex

theorem value_lt (digit : HexDigit) : digit.value < 16 :=
  CodeUnit.hexValue?_lt (Option.some_get digit.isHex).symm

def run (units : List CodeUnit) : List HexDigit :=
  (units.takeWhile (·.hexValue?.isSome)).filterMap ofUnit?

/-- The number that the digits spell, most significant first. -/
def number (digits : List HexDigit) : Nat :=
  digits.foldl (fun total digit => 16 * total + digit.value) 0

/-- The number, held at `cap` once it gets there. A run of any length costs small arithmetic. -/
def numberUpTo (cap : Nat) (digits : List HexDigit) : Nat :=
  digits.foldl (fun total digit => min cap (16 * total + digit.value)) 0

private theorem capped_fold (cap total : Nat) (digits : List HexDigit) :
    digits.foldl (fun total digit => min cap (16 * total + digit.value)) (min cap total) =
      min cap (digits.foldl (fun total digit => 16 * total + digit.value) total) := by
  induction digits generalizing total with
  | nil => rfl
  | cons digit rest ih =>
    rw [List.foldl_cons, List.foldl_cons, ← ih]
    congr 1
    omega

theorem numberUpTo_eq (cap : Nat) (digits : List HexDigit) :
    numberUpTo cap digits = min cap (number digits) := by
  simpa [numberUpTo, number] using capped_fold cap 0 digits

end HexDigit

abbrev OctalDigit := Fin 8

namespace OctalDigit

def unit (digit : OctalDigit) : CodeUnit := .ofNat (0x30 + digit.val)

def ofUnit? (unit : CodeUnit) : Option OctalDigit :=
  if isOctal : 0x30 ≤ unit.toNat ∧ unit.toNat < 0x38 then
    some ⟨unit.toNat - 0x30, by omega⟩
  else none

theorem ofUnit?_unit (digit : OctalDigit) : ofUnit? digit.unit = some digit := by
  decide +revert

theorem isSome_ofUnit? (unit : CodeUnit) : (ofUnit? unit).isSome = unit.isOctalDigit := by
  simp only [ofUnit?, CodeUnit.isOctalDigit, UInt16.le_iff_toNat_le, UInt16.reduceToNat]
  grind

/-- The longest run of octal digits that the units begin with, of at most `room` of them. -/
def run (room : Nat) (units : List CodeUnit) : List OctalDigit :=
  ((units.take room).takeWhile (·.isOctalDigit)).filterMap ofUnit?

theorem length_run_le (room : Nat) (units : List CodeUnit) : (run room units).length ≤ room := by
  have shorter := (List.takeWhile_sublist (l := units.take room) (·.isOctalDigit)).length_le
  have taken := List.length_take_le room units
  have kept := List.length_filterMap_le ofUnit? ((units.take room).takeWhile (·.isOctalDigit))
  unfold run
  omega

def number (digits : List OctalDigit) : Nat :=
  digits.foldl (fun total digit => 8 * total + digit.val) 0

end OctalDigit

end Unquote
