import Unquote.Proofs.Body.Surrogate
import Unquote.Proofs.Text.Boundary
import Unquote.Proofs.Token.Provenance

/-! The bytes of a unit's source. A span of a token that was read from a text covers whole
characters of it. They are the source of the unit, unless it ends at half of a character that is
bare or after a backslash, and then they are the source with the half that is missing. -/

namespace Unquote

open Utf16

/-- A source with what it lacks of a character. A low half lacks the unit before it, and a high
half, bare or after a backslash, the unit after it. No other source lacks anything. -/
structure Completed (source whole : List CodeUnit) : Prop where
  low : ∀ low : CodeUnit, source = [low] → low.isLowSurrogate →
    ∃ high : CodeUnit, high.isHighSurrogate ∧ whole = high :: source
  high : ∀ high : CodeUnit, source = [high] ∨ source = [.backslash, high] → high.isHighSurrogate →
    ∃ low : CodeUnit, low.isLowSurrogate ∧ whole = source ++ [low]
  same : (∀ half : CodeUnit, half.isSurrogate → source ≠ [half]) →
    (∀ high : CodeUnit, high.isHighSurrogate → source ≠ [.backslash, high]) → whole = source

theorem Construct.completed {construct : Construct} {whole : List CodeUnit}
    (completes : Text.Completes construct.source whole) : Completed construct.source whole := by
  refine ⟨?_, ?_, ?_⟩
  · intro low single isLow
    refine completes.of_low ?_ ?_
    · rw [single, List.head?_cons, Option.any_some]
      exact isLow
    · rw [single, List.getLast?_singleton, Option.any_some]
      exact CodeUnit.isHighSurrogate_of_isLowSurrogate isLow
  · intro high ends isHigh
    refine completes.of_high ?_ ?_
    · rcases ends with single | escaped
      · rw [single, List.head?_cons, Option.any_some]
        exact CodeUnit.isLowSurrogate_of_isHighSurrogate isHigh
      · rw [escaped]
        rfl
    · rcases ends with single | escaped
      · rw [single, List.getLast?_singleton, Option.any_some]
        exact isHigh
      · rw [escaped, List.getLast?_cons_cons, List.getLast?_singleton, Option.any_some]
        exact isHigh
  · intro unpaired unescaped
    rcases construct.source_cases with plain | ⟨unit, surrogate, stands⟩
    · exact completes.of_plain plain
    · rcases stands.source_cases with single | escaped
      · exact absurd single (unpaired unit surrogate)
      · refine completes.of_neither ?_ ?_
        · rw [escaped]
          rfl
        · rw [escaped, List.getLast?_cons_cons, List.getLast?_singleton, Option.any_some,
            Bool.eq_false_iff]
          exact fun isHigh => unescaped unit isHigh escaped

namespace Token

variable {kind : TokenKind}

theorem exists_source {text : List CodeUnit} {token : Token} (read : parse kind text = .ok token)
    {unit : TracedUnit} (member : unit ∈ token.units) :
    ∃ (construct : Construct) (left right : List CodeUnit), unit.source = construct.source ∧
      left.length = unit.start ∧ text = left ++ (construct.source ++ right) := by
  obtain ⟨before, construct, after, split, -, start, source, -⟩ := exists_construct member
  have whole := eq_of_parse read
  rw [split, Construct.sourceAll_append, Construct.sourceAll_cons] at whole
  refine ⟨construct, token.opening :: Construct.sourceAll before,
    Construct.sourceAll after ++ token.closing, source, ?_, ?_⟩
  · rw [start, List.length_cons, Nat.add_comm]
  · rw [whole]
    simp only [List.cons_append, List.append_assoc]

/-- The bytes of a unit's span are those of whole characters, which are its source completed. -/
theorem span_covers_source {text : String} {token : Token}
    (read : parse kind (encode text) = .ok token) {unit : TracedUnit}
    (member : unit ∈ token.units) :
    ∃ part, Text.Covers text (unit.span.utf8Range text) part ∧
      (unit.span.utf8Range text).1 < (unit.span.utf8Range text).2 ∧
      Completed unit.source (encode part) := by
  obtain ⟨construct, left, right, written, start, split⟩ := exists_source read member
  obtain ⟨part, covers, completes⟩ := Text.span_covers split construct.source_ne_nil
  have span : unit.span = ⟨left.length, construct.source.length⟩ := by
    rw [TracedUnit.span, TracedUnit.length, start, written]
  have shown : part ≠ "" := by
    rintro rfl
    obtain ⟨before, after, whole, -⟩ := completes
    have inner := (List.append_eq_nil_iff.1 whole.symm).1
    exact construct.source_ne_nil (List.append_eq_nil_iff.1 inner).2
  rw [span, written]
  exact ⟨part, covers, covers.nonempty shown, Construct.completed completes⟩

def escapedFace : String := .ofList ['\'', '\\', .ofNat 0x1F600, '\'']

/-- The low half of the character, on its own, covers the character. -/
theorem span_covers_source_escapedFace :
    ∃ token, parse .string (encode escapedFace) = .ok token ∧
      ⟨0xDE00, 3, [0xDE00], none⟩ ∈ token.units ∧
      ∃ part, Text.Covers escapedFace (Text.Span.utf8Range ⟨3, 1⟩ escapedFace) part ∧
        Completed [0xDE00] (encode part) := by
  have units : encode escapedFace =
      [.singleQuote, .backslash, 0xD83D, 0xDE00, .singleQuote] := by
    refine (encode_ofList _).trans ?_
    decide +kernel
  obtain ⟨token, read, member⟩ : ∃ token, parse .string (encode escapedFace) = .ok token ∧
      ⟨0xDE00, 3, [0xDE00], none⟩ ∈ token.units := by
    rw [units]
    exact ⟨_, rfl, by decide⟩
  obtain ⟨part, covers, -, completed⟩ := span_covers_source read member
  exact ⟨token, read, member, part, covers, completed⟩

end Token

end Unquote
