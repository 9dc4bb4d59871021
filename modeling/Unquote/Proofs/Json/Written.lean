import Unquote.Proofs.Json.Grammar
import Unquote.Proofs.Text.Numeral

/-! The text of a value is a JSON document of that value. Each part that is written reads as it was
meant whatever follows it. -/

namespace Unquote.Json

open Grammar Text

theorem digits_decimal (number : Nat) : Digits (decimal number) :=
  ⟨Nat.toDigits_ne_nil, fun _ member => isDigit_of_mem_decimal member⟩

theorem whole_decimal (value : Nat) (rest : List Char) :
    Whole (decimal value ++ rest) (decimal value) rest := by
  by_cases zero : value = 0
  · rw [zero]
    exact .zero rest
  · have digits := digits_decimal value
    have nonzero := decimal_head zero
    cases chars : decimal value with
    | nil => exact absurd chars digits.1
    | cons first others =>
      rw [chars] at digits nonzero
      exact .digits digits (fun same => nonzero (congrArg some same)) rest

theorem number_decimal (value : Nat) (rest : List Char) :
    Number (decimal value ++ rest) value rest := by
  have scaled : Grammar.number (decimal value ++ []) * 10 ^ (0 : Int).toNat =
      value * 10 ^ (([] : List Char).length + (-(0 : Int)).toNat) := by
    rw [List.append_nil, Grammar.number, ofDigitChars_decimal]
    rfl
  change Number ([] ++ (decimal value ++ rest)) value rest
  exact .written List.mem_cons_self (whole_decimal value rest) (.absent rest) (.absent rest) scaled
    (absurd · (List.cons_ne_nil _ _).symm)

theorem hexValue?_digitChar : ∀ digit < 16, hexValue? (Nat.digitChar digit) = some digit := by
  decide

theorem hexadecimalPadded_control : ∀ number < 0x20,
    hexadecimalPadded 4 number = ['0', '0', (number / 16).digitChar, (number % 16).digitChar] := by
  decide

theorem inside_control {text rest : List Char} {units : List CodeUnit} {number : Nat}
    (control : number < 0x20) (more : Inside text units rest) :
    Inside ('\\' :: 'u' :: hexadecimalPadded 4 number ++ text)
      (Utf16.encodeCodePoint number ++ units) rest := by
  have zero : hexValue? '0' = some 0 := rfl
  have unit := Inside.unit zero zero (hexValue?_digitChar (number / 16) (by omega))
    (hexValue?_digitChar (number % 16) (by omega)) more
  have spelled : ((0 * 16 + 0) * 16 + number / 16) * 16 + number % 16 = number := by omega
  rw [spelled] at unit
  rw [hexadecimalPadded_control number control, Utf16.encodeCodePoint, if_pos (by omega)]
  exact unit

theorem inside_escapeChar {text rest : List Char} {units : List CodeUnit} (char : Char)
    (more : Inside text units rest) :
    Inside (escapeChar char ++ text) (Utf16.encodeCodePoint char.toNat ++ units) rest := by
  by_cases named : char ∈ ['\"', '\\', '\x08', '\x0c', '\n', '\r', '\t']
  · simp only [List.mem_cons, List.not_mem_nil, or_false] at named
    rcases named with rfl | rfl | rfl | rfl | rfl | rfl | rfl <;> exact .escape rfl more
  · simp only [List.mem_cons, List.not_mem_nil, or_false, not_or] at named
    obtain ⟨quote, backslash, backspace, feed, line, carriage, tab⟩ := named
    rw [escapeChar, if_neg quote, if_neg backslash, if_neg backspace, if_neg feed, if_neg line,
      if_neg carriage, if_neg tab]
    split
    next control => exact inside_control control more
    next bare => exact .bare (Nat.le_of_not_lt bare) quote backslash more

theorem inside_chars (chars rest : List Char) :
    Inside (chars.flatMap escapeChar ++ '\"' :: rest) (Utf16.encodeChars chars) rest := by
  induction chars with
  | nil => exact .close rest
  | cons char chars ih =>
    rw [List.flatMap_cons, List.append_assoc]
    exact inside_escapeChar char ih

theorem stringText_append (value : String) (rest : List Char) :
    (stringText value).toList ++ rest =
      '\"' :: (value.toList.flatMap escapeChar ++ '\"' :: rest) := by
  simp [stringText]

theorem blank_newline (depth : Nat) (rest : List Char) :
    Blank ((newline depth).toList ++ rest) rest := by
  refine ⟨(newline depth).toList, fun char member => ?_, rfl⟩
  rw [newline, String.toList_ofList] at member
  rcases List.mem_cons.1 member with same | space
  · exact Or.inr (Or.inr (Or.inl same))
  · exact Or.inl (List.eq_of_mem_replicate space)

/-- The result is `out` and after it a text that reads as it should, whatever follows. -/
def Adds (out result : String) (Reads : List Char → List Char → Prop) : Prop :=
  ∃ text, result.toList = out.toList ++ text ∧ ∀ rest, Reads (text ++ rest) rest

section

variable {out between result : String} {First Others Whole : List Char → List Char → Prop}

theorem Adds.joined {mark : String} {char : Char} {depth : Nat} (spelled : mark.toList = [char])
    (first : Adds (out ++ mark ++ newline depth) between First)
    (others : Adds between result Others)
    (whole : ∀ {text start next rest}, Blank text start → First start next → Others next rest →
      Whole (char :: text) rest) : Adds out result Whole := by
  obtain ⟨text, same, isFirst⟩ := first
  obtain ⟨more, ends, areOthers⟩ := others
  refine ⟨char :: ((newline depth).toList ++ (text ++ more)), ?_, fun rest => ?_⟩
  · rw [ends, same, String.toList_append, String.toList_append, spelled]
    simp only [List.append_assoc, List.cons_append, List.nil_append]
  · simp only [List.cons_append, List.append_assoc]
    exact whole (blank_newline depth _) (isFirst _) (areOthers rest)

theorem adds_close {mark : String} {char : Char} (depth : Nat) (spelled : mark.toList = [char])
    (whole : ∀ {text rest}, Blank text (char :: rest) → Whole text rest) :
    Adds out (out ++ newline depth ++ mark) Whole := by
  refine ⟨(newline depth).toList ++ [char], ?_, fun rest => ?_⟩
  · rw [String.toList_append, String.toList_append, spelled, List.append_assoc]
  · rw [List.append_assoc]
    exact whole (blank_newline depth _)

theorem adds_member {key : String} {value : Json}
    (written : Adds (out ++ stringText key ++ ": ") result (Value · value)) :
    Adds out result (Member · key value) := by
  obtain ⟨text, same, reads⟩ := written
  refine ⟨(stringText key).toList ++ (':' :: ' ' :: text), ?_, fun rest => ?_⟩
  · rw [same]
    simp
  · have space : Blank (' ' :: (text ++ rest)) (text ++ rest) :=
      ⟨[' '], List.forall_mem_singleton.2 (Or.inl rfl), rfl⟩
    rw [List.append_assoc, stringText_append]
    exact .named (inside_chars _ _) (.refl _) space (reads rest)

end

/-! The induction is on the value. What is written of it does not depend on what follows, so the
parts of an array or an object read one after another. -/

mutual

theorem adds_write (out : String) (depth : Nat) (json : Json) :
    Adds out (json.write out depth) (Value · json) := by
  match json with
  | .null => exact ⟨['n', 'u', 'l', 'l'], by simp [write], .null⟩
  | .bool true => exact ⟨['t', 'r', 'u', 'e'], by simp [write, truth], .boolTrue⟩
  | .bool false => exact ⟨['f', 'a', 'l', 's', 'e'], by simp [write, truth], .boolFalse⟩
  | .number value =>
    exact ⟨decimal value, by simp [write], fun rest => .number (number_decimal value rest)⟩
  | .string value =>
    refine ⟨(stringText value).toList, by simp [write], fun rest => ?_⟩
    rw [stringText_append]
    exact .string (inside_chars _ _)
  | .array [] => exact ⟨['[', ']'], by simp [write], fun rest => .emptyArray (.refl _)⟩
  | .array (item :: items) =>
    rw [write]
    exact (adds_write _ _ item).joined rfl (adds_writeItems _ depth items) .array
  | .object [] =>
    exact ⟨['\x7b', '\x7d'], by simp [write], fun rest => .emptyObject (.refl _)⟩
  | .object ((key, value) :: members) =>
    rw [write]
    exact (adds_member (adds_write _ _ value)).joined rfl (adds_writeMembers _ depth members)
      .object
termination_by structural json

theorem adds_writeItems (out : String) (depth : Nat) (items : List Json) :
    Adds out (writeItems out depth items) (Items · items) := by
  match items with
  | [] =>
    rw [writeItems]
    exact adds_close depth rfl .close
  | item :: items =>
    rw [writeItems]
    exact (adds_write _ _ item).joined rfl (adds_writeItems _ depth items) (.more (.refl _))
termination_by structural items

theorem adds_writeMembers (out : String) (depth : Nat) (members : List (String × Json)) :
    Adds out (writeMembers out depth members) (Members · members) := by
  match members with
  | [] =>
    rw [writeMembers]
    exact adds_close depth rfl .close
  | (key, value) :: members =>
    rw [writeMembers]
    exact (adds_member (adds_write _ _ value)).joined rfl (adds_writeMembers _ depth members)
      (.more (.refl _))
termination_by structural members

end

/-- The text of a value is one document, and the value is what it stands for. -/
theorem document_pretty (json : Json) : Document json.pretty.toList json := by
  obtain ⟨text, same, reads⟩ := adds_write "" 0 json
  have whole := reads []
  rw [List.append_nil] at whole
  rw [pretty, same]
  exact ⟨text, [], .refl text, whole, .refl []⟩

end Unquote.Json
