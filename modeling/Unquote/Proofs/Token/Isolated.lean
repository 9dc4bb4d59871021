import Unquote.Proofs.Token.Enclosed
import Unquote.Proofs.Token.Provenance

/-! The sources of units on their own. A construct that is taken out of its token and put between
delimiters is read with the same value, whatever stood next to it. Only a zero that was an octal
escape for the digit after it becomes another construct, of the same source and value. -/

namespace Unquote

/-- At the end of the text an escape, or one written like it, stands for the same. -/
theorem Escape.exists_alone {escape : Escape} {next : Option CodeUnit} (fits : escape.Fits next) :
    ∃ other : Escape, other.source = escape.source ∧ other.value = escape.value ∧
      (other.isLegacy → escape.isLegacy) ∧ other.Fits none := by
  cases escape with
  | octal first more small =>
    by_cases lone : first = 0 ∧ more = []
    · obtain ⟨rfl, rfl⟩ := lone
      exact ⟨.nul, rfl, rfl, nofun, rfl⟩
    · refine ⟨.octal first more small, rfl, rfl, id, Or.inr rfl, fun zero alone => ?_⟩
      exact absurd ⟨Fin.ext zero, alone⟩ lone
  | nul => exact ⟨.nul, rfl, rfl, id, rfl⟩
  | lineContinuation lineBreak =>
    refine ⟨.lineContinuation lineBreak, rfl, rfl, id, ?_⟩
    cases lineBreak <;> first | trivial | exact nofun
  | _ => exact ⟨_, rfl, rfl, id, trivial⟩

section

variable {construct : Construct} {next : Option CodeUnit}

theorem StringLiteral.exists_alone {quote : Quote} (admitted : Admits quote next construct) :
    ∃ other, other.source = construct.source ∧ other.value = construct.value ∧
      Admits quote none other := by
  cases construct with
  | raw unit => exact ⟨.raw unit, rfl, rfl, admitted⟩
  | crlf => exact False.elim admitted
  | escape inner =>
    obtain ⟨other, source, value, -, fits⟩ := inner.exists_alone admitted
    exact ⟨.escape other, source, value, fits⟩

theorem Template.exists_alone (admitted : Admits next construct) :
    ∃ other, other.source = construct.source ∧ other.value = construct.value ∧
      Admits none other := by
  cases construct with
  | raw unit =>
    refine ⟨.raw unit, rfl, rfl, admitted.1, admitted.2.1, ?_, ?_⟩
    · exact fun follows => absurd follows.2 (by decide)
    · exact fun follows => absurd follows.2 (by decide)
  | crlf => exact ⟨.crlf, rfl, rfl, trivial⟩
  | escape inner =>
    obtain ⟨other, source, value, legacy, fits⟩ := inner.exists_alone admitted.2
    have modern : other.isLegacy = false :=
      Bool.eq_false_iff.2 fun refused => Bool.eq_false_iff.1 admitted.1 (legacy refused)
    exact ⟨.escape other, source, value, modern, fits⟩

theorem Construct.traceAll_of_same {other : Construct} (source : other.source = construct.source)
    (value : other.value = construct.value) (start : Nat) :
    traceAll start [other] = construct.trace start := by
  rw [traceAll_cons, traceAll_nil, List.append_nil, trace, trace, source, value]

theorem Construct.sourceAll_of_same {other : Construct}
    (source : other.source = construct.source) : construct.source = sourceAll [other] := by
  rw [sourceAll_cons, sourceAll_nil, List.append_nil, source]

theorem StringLiteral.parse_alone {quote : Quote} (admitted : Admits quote next construct) :
    ∃ literal, parse (enclose quote construct.source) = .ok literal ∧
      literal.units = construct.trace 1 := by
  obtain ⟨other, source, value, ended⟩ := exists_alone admitted
  have spelled : (rules quote).Spelled [other] [quote.unit] :=
    ⟨(rules quote).admits_before (quote_apart quote) ended, trivial⟩
  exact ⟨⟨quote, [other]⟩,
    parse_enclose_iff.2 ⟨rfl, Construct.sourceAll_of_same source, spelled⟩,
    Construct.traceAll_of_same source value 1⟩

theorem Template.parse_alone (admitted : Admits next construct) :
    ∃ template, parse (enclose .backtick construct.source .backtick) = .ok template ∧
      template.units = construct.trace 1 := by
  obtain ⟨other, source, value, ended⟩ := exists_alone admitted
  have spelled : rules.Spelled [other] Closing.backtick.units :=
    ⟨rules.admits_before rfl ended, trivial⟩
  exact ⟨⟨.backtick, [other], .backtick⟩,
    parse_enclose_iff.2 ⟨rfl, rfl, Construct.sourceAll_of_same source, spelled⟩,
    Construct.traceAll_of_same source value 1⟩

end

namespace Token

variable {kind : TokenKind} {text : List CodeUnit} {token : Token}

def fence : Token → CodeUnit
  | string literal => literal.quote.unit
  | template _ => .backtick

theorem parse_alone (read : parse kind text = .ok token) {before after : List Construct}
    {construct : Construct} (split : token.constructs = before ++ construct :: after) :
    ∃ alone, parse kind (token.fence :: construct.source ++ [token.fence]) = .ok alone ∧
      alone.units = construct.trace 1 := by
  cases kind with
  | string =>
    obtain ⟨literal, inner, rfl⟩ := map_eq_ok_iff.1 read
    have spelled := (StringLiteral.parse_eq_ok_iff.1 inner).2
    rw [show literal.constructs = before ++ construct :: after from split] at spelled
    obtain ⟨alone, parsed, units⟩ :=
      StringLiteral.parse_alone (Construct.spelled_append_iff.1 spelled).2.1
    exact ⟨.string alone, map_eq_ok_iff.2 ⟨alone, parsed, rfl⟩, units⟩
  | template =>
    obtain ⟨template, inner, rfl⟩ := map_eq_ok_iff.1 read
    have spelled := (Template.parse_eq_ok_iff.1 inner).2
    rw [show template.constructs = before ++ construct :: after from split] at spelled
    obtain ⟨alone, parsed, units⟩ :=
      Template.parse_alone (Construct.spelled_append_iff.1 spelled).2.1
    exact ⟨.template alone, map_eq_ok_iff.2 ⟨alone, parsed, rfl⟩, units⟩

/-- The source of a unit is a token by itself, between delimiters. Its units are that unit, or the
pair that the unit is half of. -/
theorem source_self_contained (read : parse kind text = .ok token) {unit : TracedUnit}
    (member : unit ∈ token.units) :
    ∃ alone, parse kind (token.fence :: unit.source ++ [token.fence]) = .ok alone ∧
      (unit.half = none → alone.units = [{ unit with start := 1 }]) ∧
      (unit.half ≠ none → ∃ high low, [high, low] <:+: token.units ∧ high.Paired low ∧
        (unit = high ∨ unit = low) ∧
        alone.units = [{ high with start := 1 }, { low with start := 1 }]) := by
  obtain ⟨before, construct, after, split, given, -, source, front, back, whole⟩ :=
    exists_construct member
  obtain ⟨alone, parsed, units⟩ := parse_alone read split
  have inside : construct.trace (1 + (Construct.sourceAll before).length) <:+: token.units := by
    rw [whole, ← List.append_assoc]
    exact ⟨front, back, rfl⟩
  refine ⟨alone, ?_, ?_⟩
  · rw [source]
    exact parsed
  · unfold Construct.trace at given units inside
    cases value : construct.value with
    | nothing =>
      rw [value] at given
      contradiction
    | unit code =>
      rw [value] at given units
      cases List.mem_singleton.1 given
      exact ⟨fun _ => units, fun marked => absurd rfl marked⟩
    | pair high low =>
      rw [value] at given units inside
      have marked : unit.half ≠ none := by
        rcases List.mem_cons.1 given with rfl | second
        · exact nofun
        · cases List.mem_singleton.1 second
          exact nofun
      refine ⟨fun unmarked => absurd unmarked marked, fun _ => ?_⟩
      refine ⟨_, _, inside, ⟨rfl, rfl, rfl, rfl⟩, ?_, units⟩
      exact (List.mem_cons.1 given).imp_right List.mem_singleton.1

def zeroEightPair : List CodeUnit :=
  [.doubleQuote, .backslash, 0x30, 0x38, .backslash, 0x75, .openBrace, 0x31, 0x46, 0x36, 0x30, 0x30,
    .closeBrace, .doubleQuote]

/-- On its own the zero is no octal escape, and has the same value. -/
theorem source_self_contained_zeroEightPair :
    ∃ token, parse .string zeroEightPair = .ok token ∧
      ⟨0, 1, [.backslash, 0x30], none⟩ ∈ token.units ∧
      ∃ alone, parse .string [.doubleQuote, .backslash, 0x30, .doubleQuote] = .ok alone ∧
        alone.units = [⟨0, 1, [.backslash, 0x30], none⟩] := by
  refine ⟨_, rfl, List.mem_cons_self, ?_⟩
  obtain ⟨alone, parsed, units, -⟩ := @source_self_contained .string zeroEightPair _ rfl
    ⟨0, 1, [.backslash, 0x30], none⟩ List.mem_cons_self
  exact ⟨alone, parsed, units rfl⟩

end Token

end Unquote
