import Unquote.Proofs.Text.WellFormed
import Unquote.Text.Span

/-! Boundaries of characters. A place in the units of a text lies between two characters or inside
one, and that decides the bytes that an offset stands for: inside a character, the offset of a start
falls back to its first byte and that of an end moves on past its last. So a span covers whole
characters, and takes in no more than the missing half at either end. -/

namespace Unquote

namespace Utf16

inductive Cut : List Char → List CodeUnit → List CodeUnit → Prop
  | between (before after : List Char) :
    Cut (before ++ after) (encodeChars before) (encodeChars after)
  | inside (before : List Char) (char : Char) (after : List Char) (wide : 0xFFFF < char.toNat) :
    Cut (before ++ char :: after) (encodeChars before ++ [highHalf char.toNat])
      (lowHalf char.toNat :: encodeChars after)

theorem Cut.cons {chars : List Char} {left right : List CodeUnit} (cut : Cut chars left right)
    (char : Char) : Cut (char :: chars) (encodeCodePoint char.toNat ++ left) right := by
  cases cut with
  | between before after => exact .between (char :: before) after
  | inside before other after wide =>
    rw [← List.append_assoc]
    exact .inside (char :: before) other after wide

theorem exists_cut {chars : List Char} {left right : List CodeUnit}
    (split : encodeChars chars = left ++ right) : Cut chars left right := by
  induction chars generalizing left with
  | nil =>
    obtain ⟨rfl, rfl⟩ := List.append_eq_nil_iff.1 split.symm
    exact .between [] []
  | cons char rest ih =>
    cases left with
    | nil =>
      rw [List.nil_append] at split
      rw [← split]
      exact .between [] (char :: rest)
    | cons unit left =>
      rw [encodeChars_cons] at split
      rcases encodeCodePoint_cases char with ⟨single, -, -, same⟩ | ⟨wide, same⟩
      · rw [same] at split
        obtain ⟨rfl, others⟩ := List.cons.inj split
        have cut := (ih others).cons char
        rw [same] at cut
        exact cut
      · rw [same] at split
        obtain ⟨rfl, others⟩ := List.cons.inj split
        cases left with
        | nil =>
          have after : lowHalf char.toNat :: encodeChars rest = right := others
          rw [← after]
          exact .inside [] char rest wide
        | cons next left =>
          obtain ⟨rfl, further⟩ := List.cons.inj others
          have cut := (ih further).cons char
          rw [same] at cut
          exact cut

theorem length_encodeChars_cons (char : Char) (rest : List Char) :
    (encodeChars (char :: rest)).length = width char + (encodeChars rest).length := by
  rw [encodeChars_cons, List.length_append, length_encodeCodePoint]

theorem encode_ne_nil {text : String} (written : text ≠ "") : encode text ≠ [] := by
  cases chars : text.toList with
  | nil => exact absurd (String.toList_eq_nil_iff.1 chars) written
  | cons char rest =>
    apply List.ne_nil_of_length_pos
    rw [encode, chars, length_encodeChars_cons]
    exact Nat.add_pos_left (width_pos char) _

theorem head?_encodeChars (chars : List Char) :
    (encodeChars chars).head?.any (·.isLowSurrogate) = false := by
  cases chars with
  | nil => rfl
  | cons char rest =>
    rw [encodeChars_cons]
    rcases encodeCodePoint_cases char with ⟨unit, alone, -, same⟩ | ⟨-, same⟩
    · rw [same, List.cons_append, List.head?_cons, Option.any_some]
      exact (CodeUnit.not_surrogate_iff.1 alone).2
    · rw [same, List.cons_append, List.head?_cons, Option.any_some]
      exact CodeUnit.isLowSurrogate_of_isHighSurrogate (highHalf_isHighSurrogate (toNat_le char))

theorem decodeChars_encodeChars (chars : List Char) : decodeChars (encodeChars chars) = chars := by
  induction chars with
  | nil => rfl
  | cons char rest ih =>
    rw [encodeChars_cons, decodeChars_append (head?_encodeChars rest), ih]
    rcases encodeCodePoint_cases char with ⟨unit, alone, same, encoded⟩ | ⟨wide, encoded⟩
    · have shown : loneChar unit = char := by
        simp [loneChar, CodeUnit.char?, alone, same]
      rw [encoded, ← shown]
      rfl
    · rw [encoded, decodeChars_pair (highHalf_isHighSurrogate (toNat_le char))
        (lowHalf_isLowSurrogate _), joinHalves_halves (by omega) (toNat_le char), Char.ofNat_toNat]
      rfl

theorem encode_inj {first second : String} (same : encode first = encode second) :
    first = second := by
  have chars := congrArg decodeChars same
  rw [encode, encode, decodeChars_encodeChars, decodeChars_encodeChars] at chars
  exact String.toList_inj.1 chars

theorem getLast?_encodeChars (chars : List Char) :
    (encodeChars chars).getLast?.any (·.isHighSurrogate) = false := by
  induction chars with
  | nil => rfl
  | cons char rest ih =>
    rw [encodeChars_cons, List.getLast?_append]
    cases last : (encodeChars rest).getLast? with
    | some unit =>
      rw [last] at ih
      exact ih
    | none =>
      rw [Option.none_or]
      rcases encodeCodePoint_cases char with ⟨unit, alone, -, same⟩ | ⟨-, same⟩
      · rw [same, List.getLast?_singleton, Option.any_some]
        exact (CodeUnit.not_surrogate_iff.1 alone).1
      · rw [same, List.getLast?_cons_cons, List.getLast?_singleton, Option.any_some]
        exact CodeUnit.isHighSurrogate_of_isLowSurrogate (lowHalf_isLowSurrogate _)

theorem width_of_wide {char : Char} (wide : 0xFFFF < char.toNat) : width char = 2 :=
  if_neg (Nat.not_le_of_lt wide)

/-- A place that no character lies across: a low half does not come after it, or a high half does
not come before it. -/
def Apart (left right : List CodeUnit) : Prop :=
  right.head?.any (·.isLowSurrogate) = false ∨ left.getLast?.any (·.isHighSurrogate) = false

theorem Apart.exists_char {chars : List Char} {left right : List CodeUnit}
    (apart : Apart left right) (split : encodeChars chars = left ++ right) (more : right ≠ []) :
    ∃ before char after, chars = before ++ char :: after ∧ left = encodeChars before := by
  cases exists_cut split with
  | between before after =>
    cases after with
    | nil => exact absurd rfl more
    | cons char rest => exact ⟨before, char, rest, rfl, rfl⟩
  | inside before char after wide =>
    rcases apart with notLow | notHigh
    · rw [List.head?_cons, Option.any_some, lowHalf_isLowSurrogate] at notLow
      contradiction
    · rw [List.getLast?_concat, Option.any_some,
        highHalf_isHighSurrogate (toNat_le char)] at notHigh
      contradiction

end Utf16

namespace Text

open Utf16

theorem utf8ByteSize_ofList_cons (char : Char) (rest : List Char) :
    (String.ofList (char :: rest)).utf8ByteSize =
      char.utf8Size + (String.ofList rest).utf8ByteSize := by
  rw [← List.singleton_append, String.ofList_append, String.utf8ByteSize_append,
    ← String.singleton_eq_ofList, String.utf8ByteSize_singleton]

theorem floorFrom_append (before after : List Char) (more : Nat) :
    floorFrom 0 (before ++ after) ((encodeChars before).length + more) =
      (String.ofList before).utf8ByteSize + floorFrom 0 after more := by
  induction before with
  | nil => simp
  | cons char rest ih =>
    have fits : width char ≤ width char + ((encodeChars rest).length + more) := Nat.le_add_right ..
    rw [length_encodeChars_cons, Nat.add_assoc, List.cons_append, floorFrom, if_pos fits,
      Nat.add_sub_cancel_left, floorFrom_eq_add, ih, utf8ByteSize_ofList_cons]
    omega

theorem ceilFrom_append (before after : List Char) (more : Nat) :
    ceilFrom 0 (before ++ after) ((encodeChars before).length + more) =
      (String.ofList before).utf8ByteSize + ceilFrom 0 after more := by
  induction before with
  | nil => simp
  | cons char rest ih =>
    have positive : width char + ((encodeChars rest).length + more) ≠ 0 := by
      have := width_pos char
      omega
    rw [length_encodeChars_cons, Nat.add_assoc, List.cons_append, ceilFrom, if_neg positive,
      Nat.add_sub_cancel_left, ceilFrom_eq_add, ih, utf8ByteSize_ofList_cons]
    omega

theorem floorFrom_zero (bytes : Nat) (chars : List Char) : floorFrom bytes chars 0 = bytes := by
  cases chars with
  | nil => rfl
  | cons char rest => exact if_neg (Nat.not_le_of_lt (width_pos char))

theorem floorFrom_boundary (before after : List Char) :
    floorFrom 0 (before ++ after) (encodeChars before).length =
      (String.ofList before).utf8ByteSize := by
  have floor := floorFrom_append before after 0
  rw [floorFrom_zero] at floor
  exact floor

theorem ceilFrom_zero (bytes : Nat) (chars : List Char) : ceilFrom bytes chars 0 = bytes := by
  cases chars <;> rfl

theorem ceilFrom_one (char : Char) (rest : List Char) :
    ceilFrom 0 (char :: rest) 1 = char.utf8Size := by
  rw [ceilFrom, if_neg (by decide), Nat.sub_eq_zero_of_le (width_pos char), ceilFrom_zero,
    Nat.zero_add]

/-- What is missing at an end of a stretch: a half of the given kind if the end
needs one, and otherwise nothing. -/
inductive Missing (isHalf : CodeUnit → Bool) : Bool → List CodeUnit → Prop
  | nothing : Missing isHalf false []
  | half {unit : CodeUnit} (kind : isHalf unit) : Missing isHalf true [unit]

/-- Where a stretch of units begins. Either it begins with a character, or with the second half of
one, and then its offset is that of the character. -/
theorem exists_floor {chars : List Char} {left right : List CodeUnit}
    (split : encodeChars chars = left ++ right) :
    ∃ before after missing, chars = before ++ after ∧ left = encodeChars before ++ missing ∧
      encodeChars after = missing ++ right ∧
      floorFrom 0 chars left.length = (String.ofList before).utf8ByteSize ∧
      Missing (·.isHighSurrogate) (right.head?.any (·.isLowSurrogate)) missing := by
  cases exists_cut split with
  | between before after =>
    refine ⟨before, after, [], rfl, (List.append_nil _).symm, rfl, ?_, ?_⟩
    · exact floorFrom_boundary before after
    · rw [head?_encodeChars]
      exact .nothing
  | inside before char after wide =>
    refine ⟨before, char :: after, [highHalf char.toNat], rfl, rfl, ?_, ?_, ?_⟩
    · rw [encodeChars_cons, encodeCodePoint, if_neg (Nat.not_le_of_lt wide)]
      rfl
    · rw [List.length_append, List.length_singleton, floorFrom_append, floorFrom,
        width_of_wide wide]
      rfl
    · rw [List.head?_cons, Option.any_some, lowHalf_isLowSurrogate]
      exact .half (highHalf_isHighSurrogate (toNat_le char))

theorem exists_ceil {chars : List Char} {left right : List CodeUnit}
    (split : encodeChars chars = left ++ right) :
    ∃ before after missing, chars = before ++ after ∧ encodeChars before = left ++ missing ∧
      right = missing ++ encodeChars after ∧
      ceilFrom 0 chars left.length = (String.ofList before).utf8ByteSize ∧
      Missing (·.isLowSurrogate) (left.getLast?.any (·.isHighSurrogate)) missing := by
  cases exists_cut split with
  | between before after =>
    refine ⟨before, after, [], rfl, (List.append_nil _).symm, rfl, ?_, ?_⟩
    · exact (ceilFrom_append before after 0).trans (congrArg _ (ceilFrom_zero 0 after))
    · rw [getLast?_encodeChars]
      exact .nothing
  | inside before char after wide =>
    refine ⟨before ++ [char], after, [lowHalf char.toNat], by simp, ?_, rfl, ?_, ?_⟩
    · rw [encodeChars_append, encodeChars_cons, encodeCodePoint, if_neg (Nat.not_le_of_lt wide)]
      simp
    · rw [List.length_append, List.length_singleton, ceilFrom_append, ceilFrom_one,
        String.ofList_append, String.utf8ByteSize_append, ← String.singleton_eq_ofList,
        String.utf8ByteSize_singleton]
    · rw [List.getLast?_concat, Option.any_some, highHalf_isHighSurrogate (toNat_le char)]
      exact .half (lowHalf_isLowSurrogate char.toNat)

def Covers (text : String) (range : Nat × Nat) (part : String) : Prop :=
  ∃ before after, text = before ++ part ++ after ∧
    range = (before.utf8ByteSize, (before ++ part).utf8ByteSize)

theorem Covers.nonempty {text part : String} {range : Nat × Nat} (covers : Covers text range part)
    (shown : part ≠ "") : range.1 < range.2 := by
  obtain ⟨before, after, -, rfl⟩ := covers
  have positive : part.utf8ByteSize ≠ 0 := shown ∘ String.utf8ByteSize_eq_zero_iff.1
  rw [String.utf8ByteSize_append]
  omega

/-- Units with what they lack of the characters at their two ends: the high half before a low one,
and the low half after a high one. -/
def Completes (units whole : List CodeUnit) : Prop :=
  ∃ before after, whole = before ++ units ++ after ∧
    Missing (·.isHighSurrogate) (units.head?.any (·.isLowSurrogate)) before ∧
    Missing (·.isLowSurrogate) (units.getLast?.any (·.isHighSurrogate)) after

section

variable {units whole : List CodeUnit}

theorem Completes.of_low (completes : Completes units whole)
    (opens : units.head?.any (·.isLowSurrogate))
    (closes : units.getLast?.any (·.isHighSurrogate) = false) :
    ∃ high : CodeUnit, high.isHighSurrogate ∧ whole = high :: units := by
  obtain ⟨before, after, rfl, ahead, behind⟩ := completes
  rw [opens] at ahead
  rw [closes] at behind
  cases ahead with | half isHigh =>
  cases behind
  exact ⟨_, isHigh, List.append_nil _⟩

theorem Completes.of_high (completes : Completes units whole)
    (opens : units.head?.any (·.isLowSurrogate) = false)
    (closes : units.getLast?.any (·.isHighSurrogate)) :
    ∃ low : CodeUnit, low.isLowSurrogate ∧ whole = units ++ [low] := by
  obtain ⟨before, after, rfl, ahead, behind⟩ := completes
  rw [opens] at ahead
  rw [closes] at behind
  cases behind with | half isLow =>
  cases ahead
  exact ⟨_, isLow, rfl⟩

theorem Completes.of_neither (completes : Completes units whole)
    (opens : units.head?.any (·.isLowSurrogate) = false)
    (closes : units.getLast?.any (·.isHighSurrogate) = false) : whole = units := by
  obtain ⟨before, after, rfl, ahead, behind⟩ := completes
  rw [opens] at ahead
  rw [closes] at behind
  cases ahead
  cases behind
  exact List.append_nil _

theorem Completes.of_plain (completes : Completes units whole)
    (plain : Plain units) : whole = units := by
  refine completes.of_neither ?_ ?_
  · rw [Option.any_eq_false]
    intro unit first
    exact (CodeUnit.not_surrogate_iff.1 (plain unit (List.mem_of_head? first))).2
  · rw [Option.any_eq_false]
    intro unit last
    exact (CodeUnit.not_surrogate_iff.1 (plain unit (List.mem_of_getLast? last))).1

end

def StandsAt (text : String) (char : Char) (pos : Nat) (range : Nat × Nat) : Prop :=
  ∃ before after, text = before ++ String.singleton char ++ after ∧
    pos = (encode before).length ∧
    range = (before.utf8ByteSize, before.utf8ByteSize + char.utf8Size)

theorem standsAt_of_split {text : String} {before after : List Char} {char : Char}
    (split : text.toList = before ++ char :: after) :
    StandsAt text char (encodeChars before).length
      (Span.utf8Range ⟨(encodeChars before).length, 1⟩ text) := by
  have floor : utf8Offset text (encodeChars before).length =
      (String.ofList before).utf8ByteSize := by
    rw [utf8Offset, split]
    exact floorFrom_boundary before (char :: after)
  have ceiling : utf8Ceiling text ((encodeChars before).length + 1) =
      (String.ofList before).utf8ByteSize + char.utf8Size := by
    rw [utf8Ceiling, split, ceilFrom_append, ceilFrom_one]
  refine ⟨String.ofList before, String.ofList after, ?_, ?_, ?_⟩
  · rw [String.singleton_eq_ofList, ← String.ofList_append, ← String.ofList_append,
      List.append_assoc, List.singleton_append, ← split, String.ofList_toList]
  · rw [encode_ofList]
  · simp only [Span.utf8Range, Span.stop]
    rw [floor, ceiling, Nat.max_eq_left (Nat.le_add_right ..)]

/-- A span covers the characters that its units belong to. -/
theorem span_covers {text : String} {left units right : List CodeUnit}
    (split : encode text = left ++ (units ++ right)) (nonempty : units ≠ []) :
    ∃ part, Covers text (Span.utf8Range ⟨left.length, units.length⟩ text) part ∧
      Completes units (encode part) := by
  obtain ⟨before, rest, lead, chars, begins, ahead, floor, opens⟩ := exists_floor split
  rw [← List.append_assoc] at ahead
  obtain ⟨part, after, trail, others, whole, ends, ceil, closes⟩ := exists_ceil ahead
  obtain ⟨unit, more, same⟩ := List.exists_cons_of_ne_nil nonempty
  have stop : left.length + units.length =
      (encodeChars before).length + (lead ++ units).length := by
    rw [begins, List.length_append, List.length_append, Nat.add_assoc]
  have ceiling : ceilFrom 0 text.toList (left.length + units.length) =
      (String.ofList before ++ String.ofList part).utf8ByteSize := by
    rw [chars, stop, ceilFrom_append, ceil, String.utf8ByteSize_append]
  refine ⟨String.ofList part, ⟨String.ofList before, String.ofList after, ?_, ?_⟩,
    lead, trail, ?_, ?_, ?_⟩
  · rw [← String.ofList_append, ← String.ofList_append, List.append_assoc, ← others, ← chars,
      String.ofList_toList]
  · have late : (String.ofList before).utf8ByteSize ≤
        (String.ofList before ++ String.ofList part).utf8ByteSize := by
      rw [String.utf8ByteSize_append]
      exact Nat.le_add_right ..
    simp only [Span.utf8Range, utf8Offset, utf8Ceiling, Span.stop]
    rw [floor, ceiling, Nat.max_eq_left late]
  · rw [encode_ofList, whole]
  · rw [same, List.cons_append, List.head?_cons] at opens
    rw [same]
    exact opens
  · have last := List.getLast?_eq_some_getLast nonempty
    rw [List.getLast?_append, last, Option.some_or] at closes
    rw [last]
    exact closes

end Text

end Unquote
