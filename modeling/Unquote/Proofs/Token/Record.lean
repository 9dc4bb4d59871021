import Mathlib.Data.List.Forall2
import Unquote.Proofs.Json.Written
import Unquote.Proofs.Token.Shown
import Unquote.Token.Format

/-! The JSON of a token, read back by the grammar. Nothing that it says of a unit is lost, and what
the sources hold does not matter. -/

namespace Unquote

/-- An object has one member of this name, and this is its value. -/
def Json.Has (json : Json) (key : String) (value : Json) : Prop :=
  ∃ members, json = .object members ∧ members.filter (·.1 = key) = [(key, value)]

structure TracedUnit.Described (unit : TracedUnit) (json : Json) : Prop where
  char : json.Has "char" (.string (Utf16.decodeLossy [unit.code]))
  charCode : json.Has "charCode" (.number unit.code.toNat)
  start : json.Has "start" (.number unit.start)
  stop : json.Has "end" (.number (unit.start + unit.source.length))
  length : json.Has "length" (.number unit.source.length)
  source : json.Has "source" (.string (Utf16.decodeLossy unit.source))
  surrogate : json.Has "surrogate" (match unit.half with
    | none => .null
    | some .high => .string "high"
    | some .low => .string "low")

theorem TracedUnit.described_record (unit : TracedUnit) : unit.Described unit.record where
  char := ⟨_, rfl, by simp⟩
  charCode := ⟨_, rfl, by simp⟩
  start := ⟨_, rfl, by simp⟩
  stop := ⟨_, rfl, by simp [TracedUnit.stop, TracedUnit.length]⟩
  length := ⟨_, rfl, by simp [TracedUnit.length]⟩
  source := ⟨_, rfl, by simp [TracedUnit.sourceText]⟩
  surrogate := ⟨_, rfl, by rcases unit.half with _ | _ | _ <;> simp [Half.name]⟩

def Token.Described : Token → Json → Prop
  | .string literal, json =>
    ∃ items flags, json.Has "codeUnits" (.array items) ∧
      List.Forall₂ TracedUnit.Described literal.units items ∧ json.Has "usedFeatures" flags ∧
      flags.Has "codePointEscape" (.bool literal.features.codePointEscape) ∧
      flags.Has "lineTerminator" (.bool literal.features.lineTerminator) ∧
      flags.Has "octalEscape" (.bool literal.features.octalEscape)
  | .template inner, json =>
    ∃ items, json.Has "codeUnits" (.array items) ∧
      List.Forall₂ TracedUnit.Described inner.units items ∧
      json.Has "kind" (.string inner.kind.name)

theorem Token.described_record (token : Token) : token.Described token.record := by
  have units (units : List TracedUnit) :
      List.Forall₂ TracedUnit.Described units (units.map (·.record)) :=
    List.forall₂_map_right_iff.2 (List.forall₂_same.2 fun unit _ => unit.described_record)
  cases token with
  | string literal =>
    exact ⟨_, literal.features.record, ⟨_, rfl, by simp⟩, units literal.units, ⟨_, rfl, by simp⟩,
      ⟨_, rfl, by simp⟩, ⟨_, rfl, by simp⟩, ⟨_, rfl, by simp⟩⟩
  | template inner => exact ⟨_, ⟨_, rfl, by simp⟩, units inner.units, ⟨_, rfl, by simp⟩⟩

def TracedUnit.told (unit : TracedUnit) : CodeUnit × Nat × Nat × String × Option Half :=
  (unit.code, unit.start, unit.length, unit.sourceText, unit.half)

section

variable {unit other : TracedUnit}

theorem TracedUnit.told_of_record (same : unit.record = other.record) :
    unit.told = other.told := by
  simp only [record, Json.object.injEq, List.cons.injEq, Prod.mk.injEq, Json.number.injEq,
    Json.string.injEq, true_and, and_true] at same
  obtain ⟨-, code, start, -, length, text, marks⟩ := same
  have half : unit.half = other.half := by
    revert marks
    rcases unit.half with _ | _ | _ <;> rcases other.half with _ | _ | _ <;> simp [Half.name]
  simp only [told, UInt16.toNat_inj.1 code, start, length, text, half]

theorem TracedUnit.record_of_told (same : unit.told = other.told) :
    unit.record = other.record := by
  simp only [told, Prod.mk.injEq] at same
  obtain ⟨code, start, length, text, half⟩ := same
  simp only [record, stop, code, start, length, text, half]

end

theorem Features.record_inj {features others : Features}
    (same : features.record = others.record) : features = others := by
  simp only [record, Json.object.injEq, List.cons.injEq, Prod.mk.injEq, Json.bool.injEq,
    true_and, and_true] at same
  exact Features.mk.injEq .. ▸ same

theorem Token.record_eq_iff (token other : Token) : token.record = other.record ↔
    token.units.map (·.told) = other.units.map (·.told) ∧ token.note = other.note := by
  cases token with
  | string literal =>
    cases other with
    | string another =>
      simp only [record, units, note, Json.object.injEq, List.cons.injEq, Prod.mk.injEq,
        Json.array.injEq, true_and, and_true, Sum.inl.injEq]
      apply Iff.intro
      · rintro ⟨records, features⟩
        exact ⟨TracedUnit.map_eq_of_map_eq TracedUnit.told_of_record records,
          Features.record_inj features⟩
      · rintro ⟨told, features⟩
        exact ⟨TracedUnit.map_eq_of_map_eq TracedUnit.record_of_told told,
          congrArg Features.record features⟩
    | template inner => simp [record, note]
  | template inner =>
    cases other with
    | string another => simp [record, note]
    | template another =>
      simp only [record, units, note, Json.object.injEq, List.cons.injEq, Prod.mk.injEq,
        Json.array.injEq, Json.string.injEq, true_and, and_true, Sum.inr.injEq]
      apply Iff.intro
      · rintro ⟨kinds, records⟩
        exact ⟨TracedUnit.map_eq_of_map_eq TracedUnit.told_of_record records,
          TemplateKind.name_inj kinds⟩
      · rintro ⟨told, kinds⟩
        exact ⟨congrArg TemplateKind.name kinds,
          TracedUnit.map_eq_of_map_eq TracedUnit.record_of_told told⟩

/-- The JSON of a token is one document. Its value says of each unit, in order, what the unit is,
and tells the features or the kind. Tokens with the same JSON have units of which it tells the same,
and the same features or kind. -/
theorem Token.json_faithful (token : Token) :
    (∃ value, (∀ other, Json.Grammar.Document (token.render .json).toList other ↔ other = value) ∧
      token.Described value) ∧
      ∀ other : Token, token.render .json = other.render .json ↔
        token.units.map (·.told) = other.units.map (·.told) ∧ token.note = other.note := by
  have document (token : Token) : Json.Grammar.Document (token.render .json).toList token.record :=
    Json.document_pretty token.record
  refine ⟨⟨token.record, fun other => ⟨fun read => ?_, ?_⟩, token.described_record⟩, fun other => ?_⟩
  · exact read.unique (document token)
  · rintro rfl
    exact document token
  · rw [← token.record_eq_iff other]
    refine ⟨fun same => ?_, fun same => congrArg Json.pretty same⟩
    have read := document token
    rw [same] at read
    exact read.unique (document other)

end Unquote
