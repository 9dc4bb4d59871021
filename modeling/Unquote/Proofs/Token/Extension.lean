import Unquote.Proofs.Token.Fault

/-! Text after a token, and after a fault. A token ends where its closing delimiter does, whatever
comes next, so none is the beginning of another. Some faults can be mended by more text; a wrong
opening, a line break that is refused and text after the end cannot. -/

namespace Unquote

/-- The faults that no further text mends. -/
def Fault.IsFinal : Fault → Prop
  | malformedDelimiter _ | lineTermination | pastEnd => True
  | unterminated | trailingBackslash | invalidEscape => False

namespace Token

variable {kind : TokenKind} {text : List CodeUnit} {fault : Fault} {pos : Nat}

theorem parse_append_of_accepts (accepted : Accepts kind text) {more : List CodeUnit}
    (further : more ≠ []) : parse kind (text ++ more) = .error ⟨.pastEnd, text.length⟩ := by
  refine located_pastEnd.2 ⟨?_, ?_⟩
  · have positive := List.length_pos_iff.2 further
    rw [List.length_append]
    omega
  · rw [List.take_append_length]
    exact accepted

theorem eq_nil_of_accepts_append {more : List CodeUnit} (whole : Accepts kind (text ++ more))
    (accepted : Accepts kind text) : more = [] := by
  apply Decidable.byContradiction
  intro further
  obtain ⟨token, read⟩ := whole
  rw [parse_append_of_accepts accepted further] at read
  contradiction

theorem lineTermination_append (failed : parse kind text = .error ⟨.lineTermination, pos⟩)
    (more : List CodeUnit) : parse kind (text ++ more) = .error ⟨.lineTermination, pos⟩ := by
  have formed : Fault.lineTermination ≠ .malformedDelimiter kind := nofun
  obtain ⟨opening, rest, scanner, rfl, opened, read⟩ := (parse_eq_fault_iff formed).1 failed
  exact (parse_eq_fault_iff formed).2
    ⟨opening, rest ++ more, scanner, rfl, opened, Body.Rules.lineTermination_append read more⟩

theorem parse_append_of_final (opened : text ≠ []) (final : fault.IsFinal)
    (failed : parse kind text = .error ⟨fault, pos⟩) (more : List CodeUnit) :
    parse kind (text ++ more) = .error ⟨fault, pos⟩ := by
  cases fault with
  | malformedDelimiter expected =>
    obtain ⟨opening, rest, rfl⟩ := List.exists_cons_of_ne_nil opened
    rw [parse_malformed_iff] at failed ⊢
    exact failed
  | lineTermination => exact lineTermination_append failed more
  | pastEnd =>
    obtain ⟨inside, accepted⟩ := located_pastEnd.1 failed
    refine located_pastEnd.2 ⟨?_, ?_⟩
    · rw [List.length_append]
      omega
    · rw [List.take_append_of_le_length (Nat.le_of_lt inside)]
      exact accepted
  | _ => exact False.elim final

/-- Tokens are prefix-free, and a final fault stays where it is however the text goes on. -/
theorem prefix_free_and_final (kind : TokenKind) (text more : List CodeUnit) :
    (Accepts kind text → more ≠ [] →
      parse kind (text ++ more) = .error ⟨.pastEnd, text.length⟩) ∧
    (Accepts kind (text ++ more) → Accepts kind text → more = []) ∧
    ∀ fault pos, text ≠ [] → fault.IsFinal → parse kind text = .error ⟨fault, pos⟩ →
      parse kind (text ++ more) = .error ⟨fault, pos⟩ :=
  ⟨fun accepted further => parse_append_of_accepts accepted further, eq_nil_of_accepts_append,
    fun _ _ opened final failed => parse_append_of_final opened final failed more⟩

/-- A zero and a dollar, each last before the closing delimiter, take nothing from the text after it.
A literal that is broken by a line feed stays so. -/
theorem prefix_free_and_final_short :
    parse .string ([.doubleQuote, .backslash, 0x30, .doubleQuote] ++ [0x38]) =
        .error ⟨.pastEnd, 4⟩ ∧
      parse .template ([.backtick, .dollar, .backtick] ++ [.openBrace]) = .error ⟨.pastEnd, 3⟩ ∧
      parse .string ([.doubleQuote, .lineFeed] ++ [.doubleQuote]) =
        .error ⟨.lineTermination, 1⟩ := by
  refine ⟨?_, ?_, ?_⟩
  · exact (prefix_free_and_final .string _ _).1 ⟨_, rfl⟩ (by decide)
  · exact (prefix_free_and_final .template _ _).1 ⟨_, rfl⟩ (by decide)
  · exact (prefix_free_and_final .string _ _).2.2 .lineTermination 1 (by decide) trivial rfl

end Token

end Unquote
