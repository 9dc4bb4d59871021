import Mathlib.Algebra.Group.Nat.Defs
import Unquote.Checked.Escape
import Unquote.Proofs.Escape.Reading

/-! Numbers that are read with checked operations. A word has room for the digits that a form of a
fixed width allows, and the word between braces stays at its largest value where it would
overflow. -/

namespace Unquote

namespace HexDigit

theorem ofUnit?_of_value {unit : CodeUnit} {value : Nat} (found : unit.hexValue? = some value) :
    ∃ digit, ofUnit? unit = some digit ∧ digit.value = value := by
  have isHex : unit.hexValue?.isSome := by
    rw [found]
    rfl
  refine ⟨⟨unit, isHex⟩, dif_pos isHex, ?_⟩
  exact Option.some.inj ((Option.some_get isHex).trans found)

theorem ofUnit?_of_not_hex {unit : CodeUnit} (found : unit.hexValue? = none) :
    ofUnit? unit = none := by
  refine dif_neg ?_
  rw [found]
  decide

theorem mapM_map_unit (digits : List HexDigit) :
    (digits.map (·.unit)).mapM ofUnit? = some digits := by
  induction digits with
  | nil => rfl
  | cons digit rest ih =>
    rw [List.map_cons, List.mapM_cons, ofUnit?_unit, ih]
    rfl

theorem map_unit_of_mapM {units : List CodeUnit} {digits : List HexDigit}
    (found : units.mapM ofUnit? = some digits) : digits.map (·.unit) = units := by
  induction units generalizing digits with
  | nil =>
    cases found
    rfl
  | cons unit rest ih =>
    rw [List.mapM_cons] at found
    obtain ⟨digit, first, found⟩ := Option.bind_eq_some_iff.1 found
    obtain ⟨others, later, found⟩ := Option.bind_eq_some_iff.1 found
    cases found
    rw [List.map_cons, unit_of_ofUnit? first, ih later]

theorem run_cons_of_value {unit : CodeUnit} {value : Nat} (found : unit.hexValue? = some value)
    (rest : List CodeUnit) :
    ∃ digit, run (unit :: rest) = digit :: run rest ∧ digit.value = value := by
  obtain ⟨digit, taken, same⟩ := ofUnit?_of_value found
  refine ⟨digit, ?_, same⟩
  unfold run
  rw [List.takeWhile_cons_of_pos (by rw [found]; rfl), List.filterMap_cons_some taken]

theorem run_of_not_hex {unit : CodeUnit} (found : unit.hexValue? = none) (rest : List CodeUnit) :
    run (unit :: rest) = [] := by
  unfold run
  rw [List.takeWhile_cons_of_neg (by rw [found]; decide), List.filterMap_nil]

end HexDigit

theorem OctalDigit.unit_toNat (digit : OctalDigit) : digit.unit.toNat = 0x30 + digit.val := by
  decide +revert

namespace Checked

theorem fit_word {number : Nat} (small : number < 0x10000) :
    fit UInt16.size number = .ok number :=
  fit_eq small

theorem hexValue?_eq (unit : CodeUnit) : hexValue? unit = .ok unit.hexValue? := by
  unfold hexValue? CodeUnit.hexValue?
  simp only [UInt16.le_iff_toNat_le, UInt16.reduceToNat]
  split
  next digit =>
    rw [sub_eq digit.1]
    rfl
  next =>
    split
    next upper =>
      have value : unit.toNat - 0x41 + 10 = unit.toNat - 0x37 := by omega
      rw [sub_eq upper.1, ok_bind, fit_word (by omega), value]
      rfl
    next =>
      split
      next lower =>
        have value : unit.toNat - 0x61 + 10 = unit.toNat - 0x57 := by omega
        rw [sub_eq lower.1, ok_bind, fit_word (by omega), value]
        rfl
      next => rfl

/-- The digit takes the place of the zeros that the shift leaves. -/
theorem shift_or {total digit : Nat} (small : digit < 16) :
    total <<< 4 ||| digit = 16 * total + digit := by
  rw [← Nat.shiftLeft_add_eq_or_of_lt small, Nat.shiftLeft_eq, Nat.mul_comm]

theorem room_step {base total digit count size : Nat} (fewer : digit < base)
    (room : (total + 1) * base ^ (count + 1) ≤ size) :
    base * total + digit < size ∧ (base * total + digit + 1) * base ^ count ≤ size := by
  have larger : base * total + digit + 1 ≤ (total + 1) * base := by
    rw [Nat.mul_comm base, Nat.succ_mul]
    omega
  have next : (base * total + digit + 1) * base ^ count ≤ size := by
    calc
      _ ≤ (total + 1) * base * base ^ count := Nat.mul_le_mul_right _ larger
      _ = (total + 1) * base ^ (count + 1) := by rw [Nat.pow_succ', Nat.mul_assoc]
      _ ≤ size := room
  have positive : 0 < base ^ count := Nat.pow_pos (by omega)
  exact ⟨Nat.le_trans (Nat.le_mul_of_pos_right _ positive) next, next⟩

/-- Sixteen bits have room for the digits, so none of them is shifted out. -/
theorem hexNumber?_eq {total : Nat} {units : List CodeUnit}
    (room : (total + 1) * 16 ^ units.length ≤ UInt16.size) :
    hexNumber? total units = .ok ((units.mapM HexDigit.ofUnit?).map fun digits =>
      digits.foldl (fun total digit => 16 * total + digit.value) total) := by
  induction units generalizing total with
  | nil => rfl
  | cons unit rest ih =>
    rw [hexNumber?, hexValue?_eq, ok_bind, List.mapM_cons]
    cases found : unit.hexValue? with
    | none =>
      rw [HexDigit.ofUnit?_of_not_hex found]
      rfl
    | some value =>
      obtain ⟨digit, taken, rfl⟩ := HexDigit.ofUnit?_of_value found
      obtain ⟨small, next⟩ := room_step digit.value_lt room
      -- The shift alone is checked, since the digit goes into bits that the shift has cleared.
      have shifted : total <<< 4 < UInt16.size := by
        rw [Nat.shiftLeft_eq]
        omega
      simp only [fit_eq shifted, ok_bind, shift_or digit.value_lt, ih next, taken]
      cases rest.mapM HexDigit.ofUnit? <;> rfl

theorem octalNumber_eq {total : Nat} {digits : List OctalDigit}
    (room : (total + 1) * 8 ^ digits.length ≤ UInt16.size) :
    octalNumber total (digits.map OctalDigit.unit) =
      .ok (digits.foldl (fun total digit => 8 * total + digit.val) total) := by
  induction digits generalizing total with
  | nil => rfl
  | cons digit rest ih =>
    obtain ⟨small, next⟩ := room_step digit.isLt room
    have spelled := OctalDigit.unit_toNat digit
    have larger : total * 8 < UInt16.size := by omega
    have value : digit.unit.toNat - 0x30 = digit.val := by omega
    have whole : total * 8 + digit.val = 8 * total + digit.val := by omega
    rw [List.map_cons, octalNumber, fit_eq larger, ok_bind, sub_eq (by omega), ok_bind, value,
      whole, fit_eq small, ok_bind, ih next, List.foldl_cons]

/-- Six digits are too many for a word. -/
example : octalNumber 0 (List.replicate 6 0x37) = .error .overflow := rfl

theorem saturate_step (total digit : Nat) :
    saturate (saturate (total * 16) + digit) = min (UInt32.size - 1) (16 * total + digit) := by
  unfold saturate
  omega

theorem digitRun_eq (total count : Nat) (units : List CodeUnit) :
    digitRun total count units =
      .ok ((HexDigit.run units).foldl
        (fun total digit => min (UInt32.size - 1) (16 * total + digit.value)) total,
        count + (HexDigit.run units).length) := by
  induction units generalizing total count with
  | nil => rfl
  | cons unit rest ih =>
    rw [digitRun, hexValue?_eq, ok_bind]
    cases found : unit.hexValue? with
    | none =>
      rw [HexDigit.run_of_not_hex found]
      rfl
    | some value =>
      obtain ⟨digit, run, rfl⟩ := HexDigit.run_cons_of_value found rest
      simp only [saturate_step, ih, run, List.foldl_cons, List.length_cons, Nat.add_assoc,
        Nat.add_comm 1]

theorem splitCodePoint_eq {codePoint : Nat} (inRange : codePoint ≤ maxCodePoint) :
    splitCodePoint codePoint = .ok (Decoded.ofCodePoint codePoint) := by
  unfold splitCodePoint Decoded.ofCodePoint
  unfold maxCodePoint at inRange
  split
  next single =>
    rw [fit_word (by omega)]
    rfl
  next above =>
    have high : (codePoint - 0x10000) >>> 10 = (codePoint - 0x10000) / 0x400 :=
      Nat.shiftRight_eq_div_pow _ 10
    have low : (codePoint - 0x10000) &&& 0x3FF = (codePoint - 0x10000) % 0x400 :=
      Nat.and_two_pow_sub_one_eq_mod _ 10
    have upper : (codePoint - 0x10000) / 0x400 < 0x400 := by omega
    have lower : (codePoint - 0x10000) % 0x400 < 0x400 := Nat.mod_lt _ (by decide)
    rw [sub_eq (by omega), ok_bind, high, low, fit_word (by omega), ok_bind, fit_word (by omega),
      ok_bind, fit_word (by omega), ok_bind, fit_word (by omega)]
    rfl

end Checked

end Unquote
