import Unquote.Proofs.Checked.Escape

/-! What a reading depends on. An escape that is read is read wherever its units stand, as long as
the same unit comes after them or the text ends there too. What the text holds before it does not
count, nor does its place, nor the features that a reader brings along. What makes a fault may lie
any number of units further on, so a fault comes back where all that follows is the same. -/

namespace Unquote

namespace Escape

variable {escape : Escape} {units others : List CodeUnit}

/-- An escape is told by its own units and the one after them. -/
theorem read?_local (found : read? units = some escape)
    (same : ∀ ahead ≤ escape.body.length, others[ahead]? = units[ahead]?) :
    read? others = some escape := by
  obtain ⟨more, rfl, fits⟩ := read?_sound found
  have begins : escape.body <+: others := by
    rw [List.prefix_iff_getElem?]
    intro ahead inside
    rw [same ahead (Nat.le_of_lt inside), List.getElem?_append_left inside,
      List.getElem?_eq_getElem inside]
  obtain ⟨after, rfl⟩ := begins
  have next : after.head? = more.head? := by
    simpa [List.getElem?_append_right, List.head?_eq_getElem?] using same _ (Nat.le_refl _)
  rw [← next] at fits
  exact read?_complete fits

/-- Its own units do not tell it alone: a zero is an octal escape only before a decimal digit. -/
example : read? [0x30] = some .nul ∧ read? [0x30, 0x38] = some (.octal 0 [] (Nat.zero_le _)) :=
  ⟨rfl, rfl⟩

end Escape

namespace Reader

variable {reader other : Reader} {legacy : Legacy}

/-- The reader as it is after `width` units, with the features that they add. -/
def pass (reader : Reader) (width : Nat) (added : Features) : Reader :=
  { reader with pos := reader.pos + width, features := reader.features ∪ added }

theorem exists_escape_of_decode (after : 0 < reader.pos) {decoded : Decoded} {passed : Reader}
    (read : reader.decode legacy = (.ok decoded, passed)) :
    ∃ escape, Escape.read? reader.rest = some escape ∧ legacy.Permits escape ∧
      escape.value = decoded ∧ reader.pass escape.body.length escape.features = passed := by
  obtain ⟨escape, -, -, step, taken⟩ | ⟨fault, offset, -, faulty⟩ := decode_cases legacy Unit after
  · obtain ⟨_, more, same, split, fits, permitted⟩ := Step.ofEscape_eq_piece_iff.1 step
    cases same
    rw [taken] at read
    cases read
    exact ⟨escape, Escape.read?_eq_some_iff.2 ⟨more, split, fits⟩, permitted, rfl, rfl⟩
  · rw [read] at faulty
    contradiction

/-- Offsets that two readers report, each as far from its reader as the other. The distance holds in
32 bits, and as a number where both readers are within 32 bits. -/
structure Shifted (reader other : Reader) (first second : Nat) : Prop where
  word : Text.offset second - Text.offset first = Text.offset other.pos - Text.offset reader.pos
  number : reader.pos < UInt32.size → other.pos < UInt32.size →
    (second : Int) - first = other.pos - reader.pos

theorem shifted_of_narrow (after : 0 < reader.pos) (later : 0 < other.pos) {width : Nat}
    (narrow : width ≤ 1) :
    Shifted reader other (Text.offset (reader.pos + width) - 1).toNat
      (Text.offset (other.pos + width) - 1).toNat where
  word := by
    simp only [Text.offset, UInt32.ofNat_toNat, UInt32.ofNat_add]
    grind
  number := by
    intro small fits
    rw [Text.offset_sub_one_toNat (Nat.add_pos_left after width) (by omega),
      Text.offset_sub_one_toNat (Nat.add_pos_left later width) (by omega)]
    omega

inductive Alike (reader other : Reader) :
    Except SyntaxError Decoded × Reader → Except SyntaxError Decoded × Reader → Prop
  | read (decoded : Decoded) (width : Nat) (added : Features) :
    Alike reader other (.ok decoded, reader.pass width added) (.ok decoded, other.pass width added)
  | failed (fault : Fault) (width : Nat) (added : Features) {first second : Nat}
    (shifted : Shifted reader other first second) :
    Alike reader other (.error ⟨fault, first⟩, reader.pass width added)
      (.error ⟨fault, second⟩, other.pass width added)

theorem decode_alike (same : other.rest = reader.rest) (after : 0 < reader.pos)
    (later : 0 < other.pos) :
    Alike reader other (reader.decode legacy) (other.decode legacy) := by
  simp only [decode, same]
  cases outcome : (Escape.attempt legacy reader.rest).outcome with
  | ok escape => exact .read escape.value _ _
  | error fault =>
    have narrow := Escape.attempt_width_le outcome
    exact .failed fault _ _ (shifted_of_narrow after later narrow)

/-- What the reading at a place has to do with the readings at others. -/
structure Local (legacy : Legacy) (reader : Reader) : Prop where
  /-- A value that was read is read again where the units that were passed stand, and the same unit
  follows them or none does. As many units are passed, and the same features are added to any. -/
  read : ∀ decoded passed, reader.decode legacy = (.ok decoded, passed) →
    ∃ width added, passed = reader.pass width added ∧
      ∀ other : Reader, (∀ ahead ≤ width, other.peek? ahead = reader.peek? ahead) →
        other.decode legacy = (.ok decoded, other.pass width added)
  alike : ∀ other : Reader, 0 < other.pos → other.rest = reader.rest →
    Alike reader other (reader.decode legacy) (other.decode legacy)
  /-- Slices of the text and words of sixteen and thirty-two bits come to the same. -/
  checked : ∀ place : Reader, 0 < place.pos →
    Checked.decode legacy place = .ok (place.decode legacy)

/-- A value depends on the units that are passed and on the one after them, and nothing depends on
more than what follows. -/
theorem reading_local (legacy : Legacy) {reader : Reader} (after : 0 < reader.pos) :
    Local legacy reader where
  read := by
    intro decoded passed read
    obtain ⟨escape, found, permitted, rfl, rfl⟩ := exists_escape_of_decode after read
    refine ⟨escape.body.length, escape.features, rfl, fun other same => ?_⟩
    simp only [peek?_eq] at same
    exact decode_of_read (Escape.read?_local found same) permitted
  alike _ later same := decode_alike same after later
  checked _ := Checked.decode_eq legacy

def beforeTenEight : Reader := ⟨[.backslash, 0x31, 0x30, 0x38], 1, ∅, []⟩

def goingOn : Reader :=
  ⟨[.doubleQuote, 0x61, .backslash, 0x31, 0x30, 0x38, 0x37], 3, .ofCodePointEscape, []⟩

def oneLater : Reader := ⟨[.backtick, .backslash, 0x31, 0x30, 0x38], 2, .ofLineTerminator, []⟩

/-- Allowed, the octal escape is read in the text that goes on. Refused, its fault is one place
later where it stands one place later. -/
theorem reading_local_tenEight :
    0 < beforeTenEight.pos ∧
      beforeTenEight.decode .allowed = (.ok (.unit 8), beforeTenEight.pass 2 .ofOctalEscape) ∧
      (∀ ahead ≤ 2, goingOn.peek? ahead = beforeTenEight.peek? ahead) ∧
      goingOn.decode .allowed = (.ok (.unit 8), goingOn.pass 2 .ofOctalEscape) ∧
      0 < oneLater.pos ∧ oneLater.rest = beforeTenEight.rest ∧
      Alike beforeTenEight oneLater
        (.error ⟨.invalidEscape, 1⟩, beforeTenEight.pass 1 .ofOctalEscape)
        (.error ⟨.invalidEscape, 2⟩, oneLater.pass 1 .ofOctalEscape) := by
  have after : 0 < beforeTenEight.pos := by decide
  have same : ∀ ahead ≤ 2, goingOn.peek? ahead = beforeTenEight.peek? ahead := by decide
  have later : 0 < oneLater.pos := by decide
  obtain ⟨width, added, passed, others⟩ := (reading_local .allowed after).read _ _ rfl
  have two : width = 2 := Nat.add_left_cancel (congrArg pos passed).symm
  have octal : added = .ofOctalEscape := (congrArg features passed).symm
  subst two octal
  exact ⟨after, rfl, same, others goingOn same, later, rfl,
    (reading_local .refused after).alike oneLater later rfl⟩

end Reader

end Unquote
