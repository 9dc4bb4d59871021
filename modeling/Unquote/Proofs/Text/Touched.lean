import Unquote.Proofs.Text.Boundary

/-! The characters that a span touches. Its start falls back to the character that it lies in and
its end moves on past the one that it lies in, so its bytes are those of the characters with a unit
in it, whatever part of their units that is. A span of no units touches a character only from
inside, and one past the end of the text touches none. -/

namespace Unquote.Text

open Utf16

theorem exists_ceilFrom (chars : List Char) (pos : Nat) :
    ∃ before after, chars = before ++ after ∧
      ceilFrom 0 chars pos = (String.ofList before).utf8ByteSize := by
  induction chars generalizing pos with
  | nil => exact ⟨[], [], rfl, rfl⟩
  | cons char rest ih =>
    by_cases stops : pos = 0
    · refine ⟨[], char :: rest, rfl, ?_⟩
      rw [stops, ceilFrom_zero]
      rfl
    · obtain ⟨before, after, rfl, bytes⟩ := ih (pos - width char)
      refine ⟨char :: before, after, rfl, ?_⟩
      rw [ceilFrom, if_neg stops, ceilFrom_eq_add, bytes, utf8ByteSize_ofList_cons]
      omega

theorem exists_between (chars : List Char) {first last : Nat} (ordered : first ≤ last) :
    ∃ before part after, chars = before ++ (part ++ after) ∧
      floorFrom 0 chars first = (String.ofList before).utf8ByteSize ∧
      ceilFrom 0 chars last =
        (String.ofList before).utf8ByteSize + (String.ofList part).utf8ByteSize := by
  induction chars generalizing first last with
  | nil => exact ⟨[], [], [], rfl, rfl, rfl⟩
  | cons char rest ih =>
    by_cases fits : width char ≤ first
    · have positive : last ≠ 0 := by
        have := width_pos char
        omega
      obtain ⟨before, part, after, rfl, start, stop⟩ :=
        ih (Nat.sub_le_sub_right ordered (width char))
      refine ⟨char :: before, part, after, rfl, ?_, ?_⟩
      · rw [floorFrom, if_pos fits, floorFrom_eq_add, start, utf8ByteSize_ofList_cons]
        omega
      · rw [ceilFrom, if_neg positive, ceilFrom_eq_add, stop, utf8ByteSize_ofList_cons]
        omega
    · obtain ⟨part, after, whole, stop⟩ := exists_ceilFrom (char :: rest) last
      refine ⟨[], part, after, whole, ?_, ?_⟩
      · rw [floorFrom, if_neg fits]
        rfl
      · rw [stop]
        exact (Nat.zero_add _).symm

section

variable (before after : List Char) (char : Char) (pos : Nat)

/-- A start falls back to a character or further, just where the character ends after it. -/
theorem floorFrom_le_iff :
    floorFrom 0 (before ++ char :: after) pos ≤ (String.ofList before).utf8ByteSize ↔
      pos < (encodeChars before).length + width char := by
  induction before generalizing pos with
  | nil =>
    have size := char.utf8Size_pos
    simp only [List.nil_append, floorFrom, encodeChars_nil, List.length_nil, Nat.zero_add]
    split
    next fits =>
      rw [floorFrom_eq_add]
      have none : (String.ofList []).utf8ByteSize = 0 := rfl
      omega
    next short => exact iff_of_true (Nat.zero_le _) (Nat.lt_of_not_le short)
  | cons first rest ih =>
    rw [List.cons_append, floorFrom, length_encodeChars_cons, utf8ByteSize_ofList_cons]
    split
    next fits =>
      have step := ih (pos - width first)
      rw [floorFrom_eq_add]
      omega
    next short => exact iff_of_true (Nat.zero_le _) (by omega)

theorem le_ceilFrom_iff :
    (String.ofList before).utf8ByteSize + char.utf8Size ≤ ceilFrom 0 (before ++ char :: after) pos ↔
      (encodeChars before).length < pos := by
  induction before generalizing pos with
  | nil =>
    have size := char.utf8Size_pos
    have none : (String.ofList []).utf8ByteSize = 0 := rfl
    simp only [List.nil_append, ceilFrom, encodeChars_nil, List.length_nil]
    split
    next stops => omega
    next more =>
      rw [ceilFrom_eq_add]
      omega
  | cons first rest ih =>
    have size := char.utf8Size_pos
    rw [List.cons_append, ceilFrom, length_encodeChars_cons, utf8ByteSize_ofList_cons]
    split
    next stops => omega
    next more =>
      have step := ih (pos - width first)
      rw [ceilFrom_eq_add]
      omega

end

theorem bytes_of_past (chars : List Char) {pos : Nat} (past : (encodeChars chars).length ≤ pos) :
    floorFrom 0 chars pos = (String.ofList chars).utf8ByteSize ∧
      ceilFrom 0 chars pos = (String.ofList chars).utf8ByteSize := by
  obtain ⟨more, rfl⟩ := Nat.exists_eq_add_of_le past
  have start := floorFrom_append chars [] more
  have stop := ceilFrom_append chars [] more
  rw [List.append_nil] at start stop
  exact ⟨start, stop⟩

theorem standsAt_iff {text : String} {char : Char} {pos : Nat} {bytes : Nat × Nat} :
    StandsAt text char pos bytes ↔ ∃ before after, text.toList = before ++ char :: after ∧
      pos = (encodeChars before).length ∧ bytes = ((String.ofList before).utf8ByteSize,
        (String.ofList before).utf8ByteSize + char.utf8Size) := by
  apply Iff.intro
  · rintro ⟨before, after, rfl, rfl, rfl⟩
    refine ⟨before.toList, after.toList, ?_, rfl, ?_⟩
    · simp
    · rw [String.ofList_toList]
  · rintro ⟨before, after, split, rfl, rfl⟩
    refine ⟨.ofList before, .ofList after, ?_, ?_, rfl⟩
    · rw [← String.toList_inj, split]
      simp
    · rw [encode_ofList]

/-- What the bytes of a span are to be: those of the characters that it touches. -/
structure Touched (text : String) (span : Span) (range : Nat × Nat) : Prop where
  /-- The bytes are some of the text's, and they are whole characters. -/
  whole : ∃ part, Covers text range part
  /-- A span with units has in it the characters that share a unit with it, and no others. -/
  shared : 0 < span.length → ∀ char pos bytes, StandsAt text char pos bytes →
    (range.1 ≤ bytes.1 ∧ bytes.2 ≤ range.2 ↔ ∃ place, span.start ≤ place ∧ place < span.stop ∧
      pos ≤ place ∧ place < pos + width char)
  /-- A span without units has in it the character whose units it parts. -/
  inside : span.length = 0 → ∀ char pos bytes, StandsAt text char pos bytes →
    pos < span.start → span.start < pos + width char → range = bytes
  /-- A span without units that parts no character has no bytes. -/
  between : span.length = 0 → (∀ char pos bytes, StandsAt text char pos bytes →
    ¬(pos < span.start ∧ span.start < pos + width char)) → range.1 = range.2
  past : (encode text).length ≤ span.start → range = (text.utf8ByteSize, text.utf8ByteSize)

section

variable (text : String) (span : Span)

theorem utf8Offset_le_utf8Ceiling : utf8Offset text span.start ≤ utf8Ceiling text span.stop := by
  obtain ⟨before, part, after, -, start, stop⟩ :=
    exists_between text.toList (Nat.le_add_right span.start span.length)
  unfold utf8Offset utf8Ceiling Span.stop
  omega

theorem utf8Range_eq :
    span.utf8Range text = (utf8Offset text span.start, utf8Ceiling text span.stop) :=
  congrArg _ (Nat.max_eq_left (utf8Offset_le_utf8Ceiling text span))

theorem utf8Range_covers : ∃ part, Covers text (span.utf8Range text) part := by
  obtain ⟨before, part, after, whole, start, stop⟩ :=
    exists_between text.toList (Nat.le_add_right span.start span.length)
  refine ⟨.ofList part, .ofList before, .ofList after, ?_, ?_⟩
  · rw [← String.toList_inj, whole]
    simp
  · rw [utf8Range_eq, String.utf8ByteSize_append, ← stop, ← start]
    rfl

variable {text span}

/-- A character is in the bytes of a span just where it begins before the span's end and ends after
its start. -/
theorem contains_iff {char : Char} {pos : Nat} {bytes : Nat × Nat}
    (stands : StandsAt text char pos bytes) :
    (span.utf8Range text).1 ≤ bytes.1 ∧ bytes.2 ≤ (span.utf8Range text).2 ↔
      span.start < pos + width char ∧ pos < span.stop := by
  obtain ⟨before, after, split, rfl, rfl⟩ := standsAt_iff.1 stands
  rw [utf8Range_eq, utf8Offset, utf8Ceiling, split]
  exact and_congr (floorFrom_le_iff before after char _) (le_ceilFrom_iff before after char _)

theorem utf8Range_of_inside (empty : span.length = 0) {char : Char} {pos : Nat} {bytes : Nat × Nat}
    (stands : StandsAt text char pos bytes) (begun : pos < span.start)
    (unended : span.start < pos + width char) : span.utf8Range text = bytes := by
  obtain ⟨before, after, split, rfl, rfl⟩ := standsAt_iff.1 stands
  have wide : 1 < width char := by omega
  have start : span.start = (encodeChars before).length + 1 := by
    have narrow : width char ≤ 2 := by
      unfold width
      split <;> decide
    omega
  have stop : span.stop = span.start := by rw [Span.stop, empty, Nat.add_zero]
  rw [utf8Range_eq, utf8Offset, utf8Ceiling, stop, start, split, floorFrom_append, ceilFrom_append,
    ceilFrom_one, floorFrom, if_neg (Nat.not_le_of_lt wide), Nat.add_zero]

/-- If a span without units had bytes, the first character of them would be parted by it. -/
theorem utf8Range_of_between (empty : span.length = 0)
    (apart : ∀ char pos bytes, StandsAt text char pos bytes →
      ¬(pos < span.start ∧ span.start < pos + width char)) :
    (span.utf8Range text).1 = (span.utf8Range text).2 := by
  have stop : span.stop = span.start := by rw [Span.stop, empty, Nat.add_zero]
  obtain ⟨before, part, after, whole, first, last⟩ :=
    exists_between text.toList (Nat.le_add_right span.start span.length)
  cases part with
  | nil =>
    rw [utf8Range_eq]
    exact first.trans last.symm
  | cons char more =>
    have stands := standsAt_iff.2 ⟨before, more ++ after, whole, rfl, rfl⟩
    have held : (span.utf8Range text).1 ≤ (String.ofList before).utf8ByteSize ∧
        (String.ofList before).utf8ByteSize + char.utf8Size ≤ (span.utf8Range text).2 := by
      rw [utf8ByteSize_ofList_cons] at last
      rw [utf8Range_eq]
      unfold utf8Offset utf8Ceiling Span.stop
      omega
    have parted := (contains_iff stands).1 held
    rw [stop] at parted
    exact absurd parted.symm (apart char _ _ stands)

theorem utf8Range_of_past (past : (encode text).length ≤ span.start) :
    span.utf8Range text = (text.utf8ByteSize, text.utf8ByteSize) := by
  have start := (bytes_of_past text.toList past).1
  have stop := (bytes_of_past text.toList (Nat.le_trans past (Nat.le_add_right _ span.length))).2
  rw [String.ofList_toList] at start stop
  rw [utf8Range_eq]
  exact Prod.ext start stop

end

/-- The bytes of a span are those of the characters that it touches, and no clamp is needed to keep
its end from falling before its start. -/
theorem utf8Range_touched (text : String) (span : Span) :
    utf8Offset text span.start ≤ utf8Ceiling text span.stop ∧
      span.utf8Range text = (utf8Offset text span.start, utf8Ceiling text span.stop) ∧
      Touched text span (span.utf8Range text) := by
  refine ⟨utf8Offset_le_utf8Ceiling text span, utf8Range_eq text span, ?_⟩
  refine ⟨utf8Range_covers text span, ?_, utf8Range_of_inside, utf8Range_of_between,
    utf8Range_of_past⟩
  intro nonempty char pos bytes stands
  have wide := width_pos char
  rw [contains_iff stands]
  unfold Span.stop
  apply Iff.intro
  · intro meets
    exact ⟨max span.start pos, by omega⟩
  · rintro ⟨place, meets⟩
    omega

def letterFace : String := .ofList ['a', .ofNat 0x1F600]

/-- Between its two units, a span without units has all four bytes of the character. -/
theorem utf8Range_touched_letterFace :
    StandsAt letterFace (.ofNat 0x1F600) 1 (1, 5) ∧
      Span.utf8Range ⟨2, 0⟩ letterFace = (1, 5) := by
  have stands : StandsAt letterFace (.ofNat 0x1F600) 1 (1, 5) :=
    standsAt_iff.2 ⟨['a'], [], String.toList_ofList, by decide, by decide⟩
  have touched := (utf8Range_touched letterFace ⟨2, 0⟩).2.2
  exact ⟨stands, touched.inside rfl _ _ _ stands (by decide) (by decide)⟩

end Unquote.Text
