import Unquote.Proofs.Body.Rules

/-! Reading part of a body. A body is unfinished when it is constructs and no more; every fault
lies where the text before it is unfinished, or, past a closing delimiter, finished. -/

namespace Unquote.Body.Rules

variable {κ : Type} {rules : Rules κ} {units : List CodeUnit} {pos : Nat}

theorem Spelled.ended {constructs : List Construct} {unit : CodeUnit} {rest : List CodeUnit}
    (spelled : rules.Spelled constructs (unit :: rest)) (other : unit.isDigit = false) :
    rules.Spelled constructs [] :=
  spelled.follow fun _ admitted => rules.admits_ended other admitted

theorem Spelled.before {constructs : List Construct} {unit : CodeUnit}
    (spelled : rules.Spelled constructs []) (apart : unit.isJoining = false)
    (rest : List CodeUnit) : rules.Spelled constructs (unit :: rest) :=
  spelled.follow fun _ admitted => rules.admits_before apart admitted

theorem not_isDigit_of_not_isJoining {unit : CodeUnit} (apart : unit.isJoining = false) :
    unit.isDigit = false := by
  simp only [CodeUnit.isJoining, decide_eq_false_iff_not, not_or] at apart
  exact Bool.eq_false_iff.2 apart.1

theorem unterminated_iff :
    read rules.step units = .error ⟨.unterminated, 0⟩ ↔
      ∃ constructs, units = Construct.sourceAll constructs ∧ rules.Spelled constructs [] := by
  rw [read_eq_unterminated_iff, eq_self, true_and]

theorem unterminated_iff_closed (mark : κ) :
    read rules.step units = .error ⟨.unterminated, 0⟩ ↔
      ∃ body, read rules.step (units ++ rules.delimiter mark) = .ok body := by
  obtain ⟨unit, rest, same, apart⟩ := rules.delimiter_apart mark
  rw [unterminated_iff]
  apply Iff.intro
  · intro unfinished
    obtain ⟨constructs, rfl, spelled⟩ := unfinished
    refine ⟨⟨constructs, mark⟩, read_eq_ok_iff.2 ⟨rfl, ?_⟩⟩
    rw [same]
    exact spelled.before apart rest
  · intro finished
    obtain ⟨⟨constructs, other⟩, read⟩ := finished
    obtain ⟨split, spelled⟩ := read_eq_ok_iff.1 read
    -- The end of a text tells its delimiter, so the one that was read is the one put there.
    cases rules.delimiter_of_end split
    rw [same] at spelled
    exact ⟨constructs, List.append_cancel_right split,
      spelled.ended (not_isDigit_of_not_isJoining apart)⟩

theorem backslash_apart : CodeUnit.backslash.isJoining = false := by
  decide

theorem trailing_iff :
    read rules.step units = .error ⟨.trailingBackslash, pos⟩ ↔
      ∃ before, units = before ++ [.backslash] ∧ pos = 1 + before.length ∧
        read rules.step before = .error ⟨.unterminated, 0⟩ := by
  have inside : Fault.trailingBackslash ≠ .unterminated ∧ Fault.trailingBackslash ≠ .pastEnd := by decide
  rw [read_eq_fault_iff inside]
  apply Iff.intro
  · intro found
    obtain ⟨constructs, unit, rest, offset, rfl, spelled, step, rfl⟩ := found
    rcases rules.fault_iff.1 step with ⟨rfl, escape⟩ | ⟨-, different, -⟩
    · rcases Step.ofEscape_eq_fault_iff.1 escape with ⟨rfl, -, rfl⟩ | ⟨-, different, -⟩
      · exact ⟨Construct.sourceAll constructs, rfl, rfl,
          unterminated_iff.2 ⟨constructs, rfl, spelled.ended (by decide)⟩⟩
      · contradiction
    · contradiction
  · intro found
    obtain ⟨before, rfl, rfl, unfinished⟩ := found
    obtain ⟨constructs, rfl, spelled⟩ := unterminated_iff.1 unfinished
    refine ⟨constructs, .backslash, [], 0, rfl, spelled.before backslash_apart [], ?_, rfl⟩
    exact rules.fault_iff.2
      (Or.inl ⟨rfl, Step.ofEscape_eq_fault_iff.2 (Or.inl ⟨rfl, rfl, rfl⟩)⟩)

theorem invalid_iff :
    read rules.step units = .error ⟨.invalidEscape, pos⟩ ↔
      ∃ before rest, units = before ++ .backslash :: rest ∧ rest ≠ [] ∧
        pos = 2 + before.length ∧ read rules.step before = .error ⟨.unterminated, 0⟩ ∧
        ∀ escape after, rest = escape.body ++ after → escape.Fits after.head? →
          ¬rules.legacy.Permits escape := by
  have inside : Fault.invalidEscape ≠ .unterminated ∧ Fault.invalidEscape ≠ .pastEnd := by decide
  rw [read_eq_fault_iff inside]
  apply Iff.intro
  · intro found
    obtain ⟨constructs, unit, rest, offset, rfl, spelled, step, rfl⟩ := found
    rcases rules.fault_iff.1 step with ⟨rfl, escape⟩ | ⟨-, different, -⟩
    · rcases Step.ofEscape_eq_fault_iff.1 escape with ⟨-, different, -⟩ | ⟨more, -, rfl, unread⟩
      · contradiction
      · exact ⟨Construct.sourceAll constructs, rest, rfl, more, by omega,
          unterminated_iff.2 ⟨constructs, rfl, spelled.ended (by decide)⟩, unread⟩
    · contradiction
  · intro found
    obtain ⟨before, rest, rfl, more, rfl, unfinished, unread⟩ := found
    obtain ⟨constructs, rfl, spelled⟩ := unterminated_iff.1 unfinished
    refine ⟨constructs, .backslash, rest, 1, rfl, spelled.before backslash_apart rest, ?_,
      by omega⟩
    exact rules.fault_iff.2
      (Or.inl ⟨rfl, Step.ofEscape_eq_fault_iff.2 (Or.inr ⟨more, rfl, rfl, unread⟩)⟩)

/-- The converse fails: a line feed may belong to the escape before it. -/
theorem lineTermination_cut (found : read rules.step units = .error ⟨.lineTermination, pos⟩) :
    ∃ before unit rest, units = before ++ unit :: rest ∧ pos = 1 + before.length ∧
      rules.Refuses unit ∧ read rules.step before = .error ⟨.unterminated, 0⟩ := by
  have inside : Fault.lineTermination ≠ .unterminated ∧ Fault.lineTermination ≠ .pastEnd := by
    decide
  obtain ⟨constructs, unit, rest, offset, rfl, spelled, step, rfl⟩ :=
    (read_eq_fault_iff inside).1 found
  rcases rules.fault_iff.1 step with ⟨rfl, escape⟩ | ⟨refused, -, rfl⟩
  · rcases Step.ofEscape_eq_fault_iff.1 escape with ⟨-, different, -⟩ | ⟨-, different, -⟩
    · contradiction
    · contradiction
  · exact ⟨Construct.sourceAll constructs, unit, rest, rfl, rfl, refused,
      unterminated_iff.2 ⟨constructs, rfl, spelled.ended (rules.refuses_other refused)⟩⟩

theorem lineTermination_append (found : read rules.step units = .error ⟨.lineTermination, pos⟩)
    (more : List CodeUnit) : read rules.step (units ++ more) = .error ⟨.lineTermination, pos⟩ := by
  have inside : Fault.lineTermination ≠ .unterminated ∧ Fault.lineTermination ≠ .pastEnd := by
    decide
  obtain ⟨constructs, unit, rest, offset, rfl, spelled, step, rfl⟩ :=
    (read_eq_fault_iff inside).1 found
  have refused : rules.Refuses unit ∧ offset = 0 := by
    rcases rules.fault_iff.1 step with ⟨-, escape⟩ | ⟨refused, -, rfl⟩
    · rcases Step.ofEscape_eq_fault_iff.1 escape with ⟨-, different, -⟩ | ⟨-, different, -⟩
      · contradiction
      · contradiction
    · exact ⟨refused, rfl⟩
  refine (read_eq_fault_iff inside).2
    ⟨constructs, unit, rest ++ more, offset, by simp, spelled.follow fun _ admitted => admitted, ?_,
      rfl⟩
  exact rules.fault_iff.2 (Or.inr ⟨refused.1, rfl, refused.2⟩)

theorem pastEnd_iff :
    read rules.step units = .error ⟨.pastEnd, pos⟩ ↔
      ∃ before unit rest, units = before ++ unit :: rest ∧ pos = 1 + before.length ∧
        ∃ body, read rules.step before = .ok body := by
  rw [read_eq_pastEnd_iff]
  apply Iff.intro
  · intro found
    obtain ⟨constructs, mark, unit, rest, rfl, spelled, rfl⟩ := found
    refine ⟨Construct.sourceAll constructs ++ rules.delimiter mark, unit, rest, rfl, ?_,
      ⟨constructs, mark⟩, read_eq_ok_iff.2 ⟨rfl, spelled⟩⟩
    rw [List.length_append]
    omega
  · intro found
    obtain ⟨before, unit, rest, rfl, rfl, ⟨constructs, mark⟩, read⟩ := found
    obtain ⟨rfl, spelled⟩ := read_eq_ok_iff.1 read
    refine ⟨constructs, mark, unit, rest, rfl, spelled, ?_⟩
    rw [List.length_append]
    omega

end Unquote.Body.Rules
