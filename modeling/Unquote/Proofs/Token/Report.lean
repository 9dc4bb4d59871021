import Unquote.Proofs.Token.Cooked
import Unquote.Proofs.Token.Fault
import Unquote.Proofs.Text.Boundary

/-! The character that an error points at. The units of a text may be halves of characters, but no
fault lies between two halves: there is always a unit on one side of it that is half of nothing. So
the place of an error is where a character begins, and its bytes are those of that character. -/

namespace Unquote.Token

open Utf16

variable {kind : TokenKind} {units : List CodeUnit} {fault : Fault} {pos : Nat}

theorem apart_of_plain_unit {unit : CodeUnit} (plain : unit.isSurrogate = false)
    (left rest : List CodeUnit) : Apart left (unit :: rest) := by
  refine Or.inl ?_
  rw [List.head?_cons, Option.any_some]
  exact (CodeUnit.not_surrogate_iff.1 plain).2

theorem apart_of_plain_last {unit : CodeUnit} (plain : unit.isSurrogate = false)
    (before right : List CodeUnit) : Apart (before ++ [unit]) right := by
  refine Or.inr ?_
  rw [List.getLast?_concat, Option.any_some]
  exact (CodeUnit.not_surrogate_iff.1 plain).1

/-- A token ends with a unit of its delimiter, which is half of nothing. -/
theorem apart_of_accepts {left : List CodeUnit} (accepted : Accepts kind left)
    (right : List CodeUnit) : Apart left right := by
  obtain ⟨token, read⟩ := accepted
  have plain := token.closing_plain _ (List.getLast_mem token.closing_ne_nil)
  rw [eq_of_parse read, ← List.dropLast_concat_getLast token.closing_ne_nil, ← List.append_assoc]
  exact apart_of_plain_last plain _ right

theorem exists_apart (failed : parse kind units = .error ⟨fault, pos⟩) (nonempty : units ≠ []) :
    ∃ left right, units = left ++ right ∧ right ≠ [] ∧ pos = left.length ∧ Apart left right := by
  have start : pos = 0 → ∃ left right, units = left ++ right ∧ right ≠ [] ∧
      pos = left.length ∧ Apart left right :=
    fun first => ⟨[], units, rfl, nonempty, first, Or.inr rfl⟩
  cases fault with
  | malformedDelimiter expected => exact start (parse_malformed_iff.1 failed).2.1
  | unterminated => exact start ((parse_unterminated_iff .backtick).1 failed).1
  | trailingBackslash =>
    obtain ⟨left, unit, rest, rfl, rfl, rfl, -, -⟩ := parse_trailing_iff.1 failed
    exact ⟨left, _, rfl, List.cons_ne_nil _ _, rfl, apart_of_plain_unit rfl left rest⟩
  | invalidEscape =>
    -- The fault lies just after a backslash, whatever the unit is that comes there.
    obtain ⟨first, unit, rest, rfl, rfl, rfl, more, -⟩ := parse_invalid_iff.1 failed
    exact ⟨first ++ [.backslash], rest, by simp, more, by simp, apart_of_plain_last rfl first rest⟩
  | lineTermination =>
    obtain ⟨left, unit, rest, rfl, rfl, -, breaks, -⟩ := parse_lineTermination_cut failed
    have plain : unit.isSurrogate = false := by
      rcases breaks with rfl | rfl <;> rfl
    exact ⟨left, _, rfl, List.cons_ne_nil _ _, rfl, apart_of_plain_unit plain left rest⟩
  | pastEnd =>
    obtain ⟨left, unit, rest, rfl, rfl, accepted⟩ := parse_pastEnd_iff.1 failed
    exact ⟨left, _, rfl, List.cons_ne_nil _ _, rfl, apart_of_accepts accepted _⟩

/-- An error points at one character, from where it begins to where it ends, or at nothing if there
is no text. -/
theorem error_points_at_character {text : String} {error : SyntaxError}
    (failed : parse kind (encode text) = .error error) :
    (text = "" → error.span.utf8Range text = (0, 0)) ∧
      (text ≠ "" →
        ∃ char, Text.StandsAt text char error.pos (error.span.utf8Range text)) := by
  apply And.intro
  · rintro rfl
    have empty : encode "" = [] := encode_ofList []
    rw [empty, parse_nil] at failed
    cases failed
    rfl
  · intro written
    obtain ⟨left, right, split, more, pos, apart⟩ := exists_apart failed (encode_ne_nil written)
    obtain ⟨before, char, after, chars, rfl⟩ := apart.exists_char split more
    have stands := Text.standsAt_of_split chars
    rw [← pos] at stands
    exact ⟨char, stands⟩

def faceAfterEnd : String := .ofList ['\'', '\'', .ofNat 0x1F600]

theorem error_points_at_character_faceAfterEnd :
    parse .string (encode faceAfterEnd) = .error ⟨.pastEnd, 2⟩ ∧ faceAfterEnd ≠ "" ∧
      ∃ char, Text.StandsAt faceAfterEnd char 2 (Text.Span.utf8Range ⟨2, 1⟩ faceAfterEnd) := by
  have units : encode faceAfterEnd = [.singleQuote, .singleQuote, 0xD83D, 0xDE00] := by
    refine (encode_ofList _).trans ?_
    decide +kernel
  have failed : parse .string (encode faceAfterEnd) = .error ⟨.pastEnd, 2⟩ := by
    rw [units]
    rfl
  have written : faceAfterEnd ≠ "" := by
    decide
  exact ⟨failed, written, (error_points_at_character failed).2 written⟩

end Unquote.Token
