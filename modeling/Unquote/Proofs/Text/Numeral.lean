import Unquote.Text.Plain

/-! Numbers read back from their digits. Zeros in front of a number do not count, so padding changes
the text of a number and not what it spells. -/

namespace Unquote.Text

/-- A run of characters of one kind ends where one of another kind stands. -/
theorem append_inj_of_run {kind : Char → Prop} {first second rest more : List Char}
    (all : ∀ char ∈ first, kind char) (others : ∀ char ∈ second, kind char)
    (stop : ∀ char ∈ rest.head?, ¬kind char) (halt : ∀ char ∈ more.head?, ¬kind char)
    (same : first ++ rest = second ++ more) : first = second ∧ rest = more := by
  induction first generalizing second with
  | nil =>
    cases second with
    | nil => exact ⟨rfl, same⟩
    | cons char second =>
      rw [List.nil_append] at same
      exact absurd (others char List.mem_cons_self) (stop char (same ▸ rfl))
  | cons char first ih =>
    cases second with
    | nil =>
      rw [List.nil_append] at same
      exact absurd (all char List.mem_cons_self) (halt char (same ▸ rfl))
    | cons next second =>
      obtain ⟨rfl, tails⟩ := List.cons.inj same
      obtain ⟨rfl, after⟩ := ih (fun char member => all char (List.mem_cons_of_mem _ member))
        (fun char member => others char (List.mem_cons_of_mem _ member)) tails
      exact ⟨rfl, after⟩

theorem isDigit_of_mem_decimal {char : Char} {number : Nat} (member : char ∈ decimal number) :
    char.isDigit :=
  Nat.isDigit_of_mem_toDigits (by decide) (by decide) member

theorem ofDigitChars_decimal (number : Nat) : Nat.ofDigitChars 10 (decimal number) 0 = number :=
  Nat.ofDigitChars_ten_toDigits

theorem decimal_inj {first second : Nat} (same : decimal first = decimal second) :
    first = second := by
  rw [← ofDigitChars_decimal first, same, ofDigitChars_decimal]

theorem decimal_head {number : Nat} (nonzero : number ≠ 0) : (decimal number).head? ≠ some '0' := by
  induction number using Nat.strongRecOn with
  | ind number ih =>
    rw [decimal, Nat.toDigits_eq_if (by decide)]
    split
    next => simpa using nonzero
    next more =>
      have before := ih (number / 10) (by omega) (by omega)
      rw [decimal] at before
      cases digits : Nat.toDigits 10 (number / 10) with
      | nil => exact absurd digits Nat.toDigits_ne_nil
      | cons first others =>
        rw [digits] at before
        exact before

theorem hexadecimal_eq (number : Nat) : hexadecimal number =
    if number < 16 then [number.digitChar]
    else hexadecimal (number / 16) ++ [(number % 16).digitChar] :=
  Nat.toDigits_eq_if (by decide)

theorem hexadecimal_cases (char : Char) (number : Nat) (member : char ∈ hexadecimal number) :
    ∃ digit < 16, char = digit.digitChar := by
  induction number using Nat.strongRecOn with
  | ind number ih =>
    rw [hexadecimal_eq] at member
    split at member
    next single => exact ⟨number, single, List.mem_singleton.1 member⟩
    next more =>
      rcases List.mem_append.1 member with before | last
      · exact ih (number / 16) (by omega) before
      · exact ⟨number % 16, Nat.mod_lt _ (by decide), List.mem_singleton.1 last⟩

def digitValue (char : Char) : Nat :=
  if char.isDigit then char.toNat - 0x30 else char.toNat - 0x57

theorem digitValue_digitChar : ∀ digit < 16, digitValue (Nat.digitChar digit) = digit := by
  decide

def hexNumber (chars : List Char) : Nat :=
  chars.foldl (fun total char => 16 * total + digitValue char) 0

theorem hexNumber_concat (chars : List Char) (last : Char) :
    hexNumber (chars ++ [last]) = 16 * hexNumber chars + digitValue last := by
  rw [hexNumber, List.foldl_append]
  rfl

theorem hexNumber_zeros (count : Nat) (chars : List Char) :
    hexNumber (List.replicate count '0' ++ chars) = hexNumber chars := by
  induction count with
  | zero => rfl
  | succ count ih => exact ih

theorem hexNumber_hexadecimal (number : Nat) : hexNumber (hexadecimal number) = number := by
  induction number using Nat.strongRecOn with
  | ind number ih =>
    rw [hexadecimal_eq]
    split
    next single =>
      have value := digitValue_digitChar number single
      exact (Nat.zero_add _).trans value
    next more =>
      rw [hexNumber_concat, ih (number / 16) (by omega),
        digitValue_digitChar _ (Nat.mod_lt _ (by decide))]
      exact Nat.div_add_mod number 16

theorem hexNumber_hexadecimalPadded (width number : Nat) :
    hexNumber (hexadecimalPadded width number) = number := by
  rw [hexadecimalPadded, List.leftpad, hexNumber_zeros, hexNumber_hexadecimal]

theorem hexadecimalPadded_inj {width first second : Nat}
    (same : hexadecimalPadded width first = hexadecimalPadded width second) : first = second := by
  rw [← hexNumber_hexadecimalPadded width first, same, hexNumber_hexadecimalPadded]

theorem not_mem_hexadecimal {char : Char} (other : ∀ digit < 16, char ≠ Nat.digitChar digit)
    (number : Nat) : char ∉ hexadecimal number := by
  intro member
  obtain ⟨digit, small, same⟩ := hexadecimal_cases char number member
  exact other digit small same

theorem not_mem_hexadecimalPadded {char : Char} (other : ∀ digit < 16, char ≠ Nat.digitChar digit)
    (width number : Nat) : char ∉ hexadecimalPadded width number := by
  intro member
  rcases List.mem_append.1 member with padding | digits
  · exact other 0 (by decide) (List.eq_of_mem_replicate padding)
  · exact not_mem_hexadecimal other number digits

end Unquote.Text
