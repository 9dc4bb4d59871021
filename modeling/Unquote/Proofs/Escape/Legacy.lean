import Unquote.Proofs.Checked.Escape

/-! Reading with and without legacy escapes. At one place the two come to the same, unless a legacy
escape stands there: that is read as a byte where it is allowed, and is a fault where it is
refused. -/

namespace Unquote

namespace Escape

variable {escape : Escape}

theorem value_of_isLegacy (old : escape.isLegacy) :
    ∃ code : CodeUnit, code.toNat < 0x100 ∧ escape.value = .unit code := by
  cases escape with
  | octal first more fits =>
    refine ⟨.ofNat (OctalDigit.number (first :: more)), ?_, rfl⟩
    have small := OctalDigit.number_lt fits
    rw [UInt16.toNat_ofNat']
    omega
  | eight => exact ⟨0x38, by decide, rfl⟩
  | nine => exact ⟨0x39, by decide, rfl⟩
  | _ => contradiction

end Escape

namespace Reader

variable {reader : Reader}

theorem octalEscape_succeed (reader : Reader) (escape : Escape) :
    (reader.succeed escape).2.features.octalEscape =
      (reader.features.octalEscape || escape.isLegacy) := by
  rw [← escape.octalEscape_eq_isLegacy]
  rfl

/-- Either legacy escapes make no difference at a place, or one of them stands there. -/
theorem decode_both_ways (reader : Reader) :
    (reader.decode .refused = reader.decode .allowed ∧
      (reader.decode .allowed).2.features.octalEscape = reader.features.octalEscape) ∨
    ∃ escape, escape.isLegacy ∧ reader.decode .allowed = reader.succeed escape ∧
      (reader.decode .refused).1 = .error ⟨.invalidEscape, reader.offset⟩ := by
  by_cases ended : reader.rest = []
  · apply Or.inl
    rw [decode_of_nil ended, decode_of_nil ended]
    exact ⟨rfl, rfl⟩
  · cases found : Escape.read? reader.rest with
    | none =>
      apply Or.inl
      rw [decode_of_unread found ended, decode_of_unread found ended]
      exact ⟨rfl, rfl⟩
    | some escape =>
      cases old : escape.isLegacy with
      | true =>
        refine Or.inr ⟨escape, old, decode_of_read found fun _ => rfl, ?_⟩
        rw [decode_of_refused found (Legacy.not_permits old)]
      | false =>
        apply Or.inl
        rw [decode_of_read found (Legacy.permits_modern old .refused),
          decode_of_read found (Legacy.permits_modern old .allowed)]
        refine ⟨rfl, ?_⟩
        rw [octalEscape_succeed, old, Bool.or_false]

/-- What a reading that refuses legacy escapes has in common with one that allows them. -/
structure DiffersInLegacy (reader : Reader) (allowed refused : Except SyntaxError Decoded × Reader) :
    Prop where
  /-- Without an octal escape, the answers are the same and so are the readers after them. -/
  same : allowed.2.features.octalEscape = false → refused = allowed
  legacy : allowed.2.features.octalEscape →
    (∃ code : CodeUnit, code.toNat < 0x100 ∧ allowed.1 = .ok (.unit code)) ∧
      refused.1 = .error ⟨.invalidEscape, reader.offset⟩
  place : reader.pos < UInt32.size → reader.offset = reader.pos
  /-- What is read where legacy escapes are refused is read the same where they are allowed. -/
  kept : ∀ decoded passed, refused = (.ok decoded, passed) → allowed = (.ok decoded, passed)

theorem differs_in_legacy (unnoted : reader.features = ∅) (after : 0 < reader.pos) :
    DiffersInLegacy reader (reader.decode .allowed) (reader.decode .refused) ∧
      ∀ legacy, Checked.decode legacy reader = .ok (reader.decode legacy) := by
  refine ⟨?_, fun legacy => Checked.decode_eq legacy after⟩
  obtain ⟨same, noted⟩ | ⟨escape, old, allowed, refused⟩ := decode_both_ways reader
  · have modern : (reader.decode .allowed).2.features.octalEscape = false := by
      rw [noted, unnoted]
      rfl
    refine ⟨fun _ => same, ?_, offset_eq_pos, fun _ _ read => same.symm.trans read⟩
    intro octal
    rw [modern] at octal
    contradiction
  · have octal : (reader.decode .allowed).2.features.octalEscape := by
      rw [allowed, octalEscape_succeed, old, Bool.or_true]
    refine ⟨?_, fun _ => ⟨?_, refused⟩, offset_eq_pos, ?_⟩
    · intro unused
      rw [octal] at unused
      contradiction
    · obtain ⟨code, small, value⟩ := Escape.value_of_isLegacy old
      rw [allowed]
      exact ⟨code, small, congrArg Except.ok value⟩
    · intro decoded passed read
      rw [read] at refused
      contradiction

def beforeZeroEight : Reader := ⟨[.backslash, 0x30, 0x38], 1, ∅, []⟩

/-- The zero alone is an octal escape there, and the eight is left over. -/
theorem differs_in_legacy_zeroEight :
    beforeZeroEight.features = ∅ ∧ 0 < beforeZeroEight.pos ∧
      DiffersInLegacy beforeZeroEight (beforeZeroEight.decode .allowed)
        (beforeZeroEight.decode .refused) ∧
      beforeZeroEight.decode .allowed =
        (.ok (.unit 0), { beforeZeroEight.advance 1 with features := .ofOctalEscape }) ∧
      (beforeZeroEight.decode .refused).1 = .error ⟨.invalidEscape, 1⟩ :=
  ⟨rfl, by decide, (differs_in_legacy rfl (by decide)).1, rfl, rfl⟩

end Reader

end Unquote
