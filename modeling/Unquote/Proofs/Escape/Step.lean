import Unquote.Body
import Unquote.Proofs.Escape.Reading

/-! The step of a body at a backslash, and what the unit after an escape has to do with it. -/

namespace Unquote

/-- Units that may change the construct before them. -/
def CodeUnit.isJoining (unit : CodeUnit) : Bool :=
  unit.isDigit ∨ unit = lineFeed ∨ unit = openBrace

theorem CodeUnit.isDigit_of_isOctalDigit {unit : CodeUnit} (octal : unit.isOctalDigit) :
    unit.isDigit := by
  simp only [isOctalDigit, isDigit, UInt16.le_iff_toNat_le, UInt16.reduceToNat,
    decide_eq_true_eq] at octal ⊢
  omega

def Legacy.Permits (legacy : Legacy) (escape : Escape) : Prop :=
  escape.isLegacy → legacy = .allowed

theorem Legacy.refused_of_not_permits {legacy : Legacy} {escape : Escape}
    (blocked : ¬legacy.Permits escape) : escape.isLegacy ∧ legacy = .refused := by
  obtain ⟨old, notAllowed⟩ := Classical.not_imp.1 blocked
  cases legacy with
  | allowed => exact absurd rfl notAllowed
  | refused => exact ⟨old, rfl⟩

theorem Legacy.not_permits {escape : Escape} (old : escape.isLegacy) :
    ¬Legacy.refused.Permits escape := by
  intro permitted
  have same := permitted old
  contradiction

theorem Legacy.permits_modern {escape : Escape} (modern : escape.isLegacy = false)
    (legacy : Legacy) : legacy.Permits escape := by
  intro old
  rw [modern] at old
  contradiction

namespace Escape

theorem octalEscape_eq_isLegacy (escape : Escape) :
    escape.features.octalEscape = escape.isLegacy := by
  cases escape <;> rfl

/-- An escape that a unit did not change stays what it is at the end of the text. A digit may have
made an octal escape of a zero, so digits are left out. -/
theorem Fits.ended {escape : Escape} {unit : CodeUnit} (fits : escape.Fits (some unit))
    (other : unit.isDigit = false) : escape.Fits none := by
  cases escape with
  | lineContinuation lineBreak => cases lineBreak <;> first | trivial | exact nofun
  | nul => rfl
  | octal first more small =>
    refine ⟨Or.inr rfl, fun zero alone => ?_⟩
    have digit := fits.2 zero alone
    simp [other] at digit
  | _ => trivial

theorem Fits.before {escape : Escape} {unit : CodeUnit} (fits : escape.Fits none)
    (apart : unit.isJoining = false) : escape.Fits (some unit) := by
  simp only [CodeUnit.isJoining, decide_eq_false_iff_not, not_or] at apart
  obtain ⟨other, notFeed, -⟩ := apart
  cases escape with
  | lineContinuation lineBreak =>
    cases lineBreak <;> first | trivial | exact fun same => notFeed (Option.some.inj same)
  | nul => simpa [Fits] using other
  | octal first more small =>
    refine ⟨Or.inr ?_, fun zero alone => ?_⟩
    · have notOctal := mt CodeUnit.isDigit_of_isOctalDigit other
      simpa using notOctal
    · have digit := fits.2 zero alone
      simp at digit
  | _ => trivial

section

variable {legacy : Legacy} {units : List CodeUnit} {escape : Escape}

theorem attempt_of_permitted (found : read? units = some escape)
    (permitted : legacy.Permits escape) :
    attempt legacy units = ⟨.ok escape, escape.body.length, escape.features⟩ := by
  have accepted : ¬(escape.isLegacy ∧ legacy = .refused) := by
    intro both
    have taken := permitted both.1
    rw [both.2] at taken
    contradiction
  simp only [attempt, found, if_neg accepted]

theorem attempt_of_refused (found : read? units = some escape)
    (refused : ¬legacy.Permits escape) :
    attempt legacy units = ⟨.error .invalidEscape, 1, escape.refusedFeatures⟩ := by
  have both := Legacy.refused_of_not_permits refused
  simp only [attempt, found, if_pos both]

theorem attempt_of_unread (unread : read? units = none) (more : units ≠ []) :
    attempt legacy units = ⟨.error .invalidEscape, 1, .empty⟩ := by
  simp only [attempt, unread, if_neg more]

end

theorem announced_of_unread {unit : CodeUnit} {rest : List CodeUnit}
    (unread : read? (unit :: rest) = none) : unit = 0x78 ∨ unit = 0x75 := by
  have announced := Lead.announced_ofUnit unit
  rw [read?] at unread
  split at unread
  case h_2 lead =>
    rw [lead] at announced
    exact Or.inl announced
  case h_3 lead =>
    rw [lead] at announced
    exact Or.inr announced
  all_goals contradiction

theorem isDigit_of_isLegacy {escape : Escape} (old : escape.isLegacy) {unit : CodeUnit}
    {rest after : List CodeUnit} (split : unit :: rest = escape.body ++ after) :
    unit.isDigit := by
  cases escape with
  | octal first more small =>
    rw [(List.cons.inj split).1]
    exact OctalDigit.unit_isDigit first
  | eight =>
    cases split
    rfl
  | nine =>
    cases split
    rfl
  | _ => contradiction

/-- Only a hexadecimal or a Unicode escape can be broken; the others can only be refused. -/
theorem announced_of_none_permitted {legacy : Legacy} {unit : CodeUnit} {rest : List CodeUnit}
    (none_permitted : ∀ escape after, unit :: rest = escape.body ++ after →
      escape.Fits after.head? → ¬legacy.Permits escape) :
    unit = 0x78 ∨ unit = 0x75 ∨ legacy = .refused ∧ unit.isDigit := by
  cases found : read? (unit :: rest) with
  | none =>
    rcases announced_of_unread found with hex | unicode
    · exact Or.inl hex
    · exact Or.inr (Or.inl unicode)
  | some escape =>
    obtain ⟨after, split, fits⟩ := read?_eq_some_iff.1 found
    obtain ⟨old, refused⟩ :=
      Legacy.refused_of_not_permits (none_permitted escape after split fits)
    exact Or.inr (Or.inr ⟨refused, isDigit_of_isLegacy old split⟩)

end Escape

namespace Step

variable {κ : Type} {legacy : Legacy} {rest : List CodeUnit}

theorem ofEscape_cases (legacy : Legacy) (rest : List CodeUnit) :
    (∃ escape after, rest = escape.body ++ after ∧ escape.Fits after.head? ∧
      legacy.Permits escape ∧ (ofEscape legacy rest : Step κ) = .piece (.escape escape)) ∨
    (∀ escape after, rest = escape.body ++ after → escape.Fits after.head? →
      ¬legacy.Permits escape) ∧
      (ofEscape legacy rest : Step κ) =
        if rest = [] then .fault .trailingBackslash 0 else .fault .invalidEscape 1 := by
  cases found : Escape.read? rest with
  | none =>
    refine Or.inr ⟨fun escape after split fits => ?_, ?_⟩
    · have read := Escape.read?_eq_some_iff.2 ⟨after, split, fits⟩
      rw [found] at read
      contradiction
    · by_cases ended : rest = []
      · subst ended
        rfl
      · simp only [ofEscape, Escape.attempt_of_unread found ended, if_neg ended]
  | some escape =>
    obtain ⟨after, split, fits⟩ := Escape.read?_eq_some_iff.1 found
    by_cases permitted : legacy.Permits escape
    · refine Or.inl ⟨escape, after, split, fits, permitted, ?_⟩
      simp only [ofEscape, Escape.attempt_of_permitted found permitted]
    · refine Or.inr ⟨fun other tail same stays => ?_, ?_⟩
      · have read := Escape.read?_eq_some_iff.2 ⟨tail, same, stays⟩
        rw [found] at read
        cases read
        exact permitted
      · have more : rest ≠ [] := by
          intro ended
          rw [ended] at found
          contradiction
        simp only [ofEscape, Escape.attempt_of_refused found permitted, if_neg more]

theorem ofEscape_eq_piece_iff {construct : Construct} :
    (ofEscape legacy rest : Step κ) = .piece construct ↔
      ∃ escape after, construct = .escape escape ∧ rest = escape.body ++ after ∧
        escape.Fits after.head? ∧ legacy.Permits escape := by
  apply Iff.intro
  · intro taken
    obtain ⟨escape, after, split, fits, permitted, step⟩ | ⟨-, step⟩ :=
      ofEscape_cases (κ := κ) legacy rest
    · rw [step] at taken
      cases taken
      exact ⟨escape, after, rfl, split, fits, permitted⟩
    · rw [step] at taken
      split at taken <;> contradiction
  · intro written
    obtain ⟨escape, after, rfl, split, fits, permitted⟩ := written
    have found := Escape.read?_eq_some_iff.2 ⟨after, split, fits⟩
    simp only [ofEscape, Escape.attempt_of_permitted found permitted]

theorem ofEscape_ne_close {mark : κ} {width : Nat} :
    (ofEscape legacy rest : Step κ) ≠ .close mark width := by
  intro closed
  obtain ⟨escape, after, -, -, -, step⟩ | ⟨-, step⟩ := ofEscape_cases (κ := κ) legacy rest
  · rw [step] at closed
    contradiction
  · rw [step] at closed
    split at closed <;> contradiction

theorem ofEscape_eq_fault_iff {fault : Fault} {offset : Nat} :
    (ofEscape legacy rest : Step κ) = .fault fault offset ↔
      rest = [] ∧ fault = .trailingBackslash ∧ offset = 0 ∨
      rest ≠ [] ∧ fault = .invalidEscape ∧ offset = 1 ∧
        ∀ escape after, rest = escape.body ++ after → escape.Fits after.head? →
          ¬legacy.Permits escape := by
  obtain ⟨escape, after, split, fits, permitted, step⟩ | ⟨none_read, step⟩ :=
    ofEscape_cases (κ := κ) legacy rest
  · have more : rest ≠ [] := by
      rw [split]
      exact List.append_ne_nil_of_left_ne_nil escape.body_ne_nil _
    rw [step]
    apply Iff.intro
    · nofun
    · intro expected
      rcases expected with ⟨ended, -⟩ | ⟨-, -, -, none_read⟩
      · exact absurd ended more
      · exact absurd permitted (none_read escape after split fits)
  · rw [step]
    by_cases ended : rest = []
    · rw [if_pos ended]
      apply Iff.intro
      · intro taken
        cases taken
        exact Or.inl ⟨ended, rfl, rfl⟩
      · intro expected
        rcases expected with ⟨-, rfl, rfl⟩ | ⟨more, -⟩
        · rfl
        · exact absurd ended more
    · rw [if_neg ended]
      apply Iff.intro
      · intro taken
        cases taken
        exact Or.inr ⟨ended, rfl, rfl, none_read⟩
      · intro expected
        rcases expected with ⟨empty, -⟩ | ⟨-, rfl, rfl, -⟩
        · exact absurd empty ended
        · rfl

end Step

end Unquote
