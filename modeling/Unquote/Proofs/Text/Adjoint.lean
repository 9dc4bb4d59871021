import Unquote.Proofs.Text.Touched

/-! The bytes that an offset stands for, and the whole characters that fit in its units. The text
before a boundary has no more bytes than an offset stands for just where it has no more units than
the offset, so the two counts of the texts before boundaries decide each other. That the offset
stands for the longest of those texts, that it is monotone and where it falls follow from this. -/

namespace Unquote.Text

open Utf16

/-- A run of characters at the front has its bytes in those of an offset, just where it has its
units in the offset. -/
theorem le_floorFrom_iff (front back : List Char) (pos : Nat) :
    (String.ofList front).utf8ByteSize ≤ floorFrom 0 (front ++ back) pos ↔
      (encodeChars front).length ≤ pos := by
  induction front generalizing pos with
  | nil =>
    apply iff_of_true
    · exact Nat.zero_le _
    · exact Nat.zero_le _
  | cons char rest ih =>
    have size := char.utf8Size_pos
    rw [List.cons_append, floorFrom, length_encodeChars_cons, utf8ByteSize_ofList_cons]
    split
    next fits =>
      have step := ih (pos - width char)
      rw [floorFrom_eq_add]
      omega
    next short =>
      apply iff_of_false
      · omega
      · omega

theorem floorFrom_append_of_lt (chars more : List Char) {pos : Nat}
    (inside : pos < (encodeChars chars).length) :
    floorFrom 0 (chars ++ more) pos = floorFrom 0 chars pos := by
  induction chars generalizing pos with
  | nil => exact absurd inside (Nat.not_lt_zero pos)
  | cons char rest ih =>
    rw [length_encodeChars_cons] at inside
    rw [List.cons_append, floorFrom, floorFrom]
    split
    next fits =>
      have later : pos - width char < (encodeChars rest).length := by omega
      rw [floorFrom_eq_add, ih later, ← floorFrom_eq_add]
    next short => rfl

section

variable {text front back : String}

theorem le_utf8Offset_iff (split : text = front ++ back) (pos : Nat) :
    front.utf8ByteSize ≤ utf8Offset text pos ↔ (encode front).length ≤ pos := by
  have counts := le_floorFrom_iff front.toList back.toList pos
  rw [String.ofList_toList, ← String.toList_append, ← split] at counts
  exact counts

theorem exists_front (text : String) (pos : Nat) :
    ∃ front back, text = front ++ back ∧ utf8Offset text pos = front.utf8ByteSize := by
  obtain ⟨before, part, after, whole, floor, -⟩ :=
    exists_between text.toList (Nat.le_refl pos)
  refine ⟨.ofList before, .ofList (part ++ after), ?_, floor⟩
  rw [← String.ofList_append, ← whole, String.ofList_toList]

theorem exists_between_of_le {other rest : String} (split : text = front ++ back)
    (parted : text = other ++ rest) (fewer : other.utf8ByteSize ≤ front.utf8ByteSize) :
    ∃ between, front = other ++ between := by
  have same : front.toList ++ back.toList = other.toList ++ rest.toList := by
    rw [← String.toList_append, ← String.toList_append, ← split, ← parted]
  rcases List.append_eq_append_iff.1 same with ⟨more, longer, -⟩ | ⟨more, longer, -⟩
  · have joined : other = front ++ .ofList more := by
      rw [← String.toList_inj, longer]
      simp
    rw [joined, String.utf8ByteSize_append] at fewer
    have none : (String.ofList more).utf8ByteSize = 0 := by omega
    refine ⟨"", ?_⟩
    rw [joined, String.utf8ByteSize_eq_zero_iff.1 none, String.append_empty, String.append_empty]
  · refine ⟨.ofList more, ?_⟩
    rw [← String.toList_inj, longer]
    simp

end

/-- What the bytes that offsets stand for are to the units of a text. -/
structure Adjoint (text : String) : Prop where
  /-- The bytes are those of the longest text before a boundary that has no more units. -/
  longest : ∀ pos, ∃ front back, text = front ++ back ∧ (encode front).length ≤ pos ∧
    utf8Offset text pos = front.utf8ByteSize ∧
    ∀ other rest, text = other ++ rest → (encode other).length ≤ pos →
      ∃ between, front = other ++ between
  /-- The bytes of a text before a boundary and its units decide each other. -/
  adjoint : ∀ front back pos, text = front ++ back →
    (front.utf8ByteSize ≤ utf8Offset text pos ↔ (encode front).length ≤ pos)
  monotone : ∀ first last, first ≤ last → utf8Offset text first ≤ utf8Offset text last
  boundary : ∀ front back, text = front ++ back →
    utf8Offset text (encode front).length = front.utf8ByteSize
  /-- A place at one of the units of a character, also between two of them, falls back to the
  character's first byte. -/
  inside : ∀ char pos bytes, StandsAt text char pos bytes →
    ∀ place, pos ≤ place → place < pos + width char → utf8Offset text place = bytes.1
  past : ∀ pos, (encode text).length ≤ pos → utf8Offset text pos = text.utf8ByteSize
  extended : ∀ more pos, pos < (encode text).length →
    utf8Offset (text ++ more) pos = utf8Offset text pos

theorem utf8Offset_boundary {text front back : String} (split : text = front ++ back) :
    utf8Offset text (encode front).length = front.utf8ByteSize := by
  have floor := floorFrom_boundary front.toList back.toList
  rw [← String.toList_append, ← split, String.ofList_toList] at floor
  exact floor

theorem utf8Offset_inside {text : String} {char : Char} {pos place : Nat} {bytes : Nat × Nat}
    (stands : StandsAt text char pos bytes) (begun : pos ≤ place)
    (unended : place < pos + width char) : utf8Offset text place = bytes.1 := by
  obtain ⟨before, after, split, rfl, rfl⟩ := standsAt_iff.1 stands
  apply Nat.le_antisymm
  · rw [utf8Offset, split]
    exact (floorFrom_le_iff before after char place).2 unended
  · rw [utf8Offset, split]
    exact (le_floorFrom_iff before (char :: after) place).2 begun

theorem utf8Offset_longest (text : String) (pos : Nat) :
    ∃ front back, text = front ++ back ∧ (encode front).length ≤ pos ∧
      utf8Offset text pos = front.utf8ByteSize ∧
      ∀ other rest, text = other ++ rest → (encode other).length ≤ pos →
        ∃ between, front = other ++ between := by
  obtain ⟨front, back, split, bytes⟩ := exists_front text pos
  refine ⟨front, back, split, ?_, bytes, ?_⟩
  · exact (le_utf8Offset_iff split pos).1 (Nat.le_of_eq bytes.symm)
  · intro other rest parted fits
    apply exists_between_of_le split parted
    rw [← bytes]
    exact (le_utf8Offset_iff parted pos).2 fits

theorem utf8Offset_monotone (text : String) {first last : Nat} (ordered : first ≤ last) :
    utf8Offset text first ≤ utf8Offset text last := by
  obtain ⟨front, back, split, bytes⟩ := exists_front text first
  rw [bytes, le_utf8Offset_iff split]
  calc
    (encode front).length ≤ first := (le_utf8Offset_iff split first).1 (Nat.le_of_eq bytes.symm)
    _ ≤ last := ordered

/-- The offset in bytes is adjoint to the length in units of the text before a boundary. -/
theorem utf8Offset_adjoint (text : String) : Adjoint text where
  longest := utf8Offset_longest text
  adjoint _ _ pos split := le_utf8Offset_iff split pos
  monotone _ _ := utf8Offset_monotone text
  boundary _ _ := utf8Offset_boundary
  inside _ _ _ stands _ := utf8Offset_inside stands
  past pos beyond := by
    have floor := (bytes_of_past text.toList beyond).1
    rw [String.ofList_toList] at floor
    exact floor
  extended more pos within := by
    rw [utf8Offset, String.toList_append]
    exact floorFrom_append_of_lt text.toList more.toList within

end Unquote.Text
