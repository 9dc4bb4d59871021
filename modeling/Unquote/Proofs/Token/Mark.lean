import Unquote.Proofs.Grammar.Item
import Unquote.Proofs.Token.Cooked
import Unquote.Proofs.Token.Coverage

/-! The marks of units. A unit is marked if it is half of a code point that one escape wrote by its
number, and only then, so the marks part the units of a token into single ones and pairs. Surrogates
that stand around a pair, bare or escaped, are single units and leave it whole. -/

namespace Unquote

open Utf16

def braced (digits : List HexDigit) : List CodeUnit :=
  .backslash :: 0x75 :: .openBrace :: digits.map (·.unit) ++ [.closeBrace]

def codePointOf (digits : List HexDigit) : Nat := Grammar.numeral 16 (digits.map (·.value))

/-- The two units of a code point that one escape wrote by its number. -/
structure Twins (digits : List HexDigit) (high low : TracedUnit) : Prop where
  paired : high.Paired low
  source : high.source = braced digits
  above : 0x10000 ≤ codePointOf digits
  below : codePointOf digits ≤ 0x10FFFF
  high_range : 0xD800 ≤ high.code.toNat ∧ high.code.toNat ≤ 0xDBFF
  low_range : 0xDC00 ≤ low.code.toNat ∧ low.code.toNat ≤ 0xDFFF
  joined : codePointOf digits =
    0x10000 + (high.code.toNat - 0xD800) * 1024 + (low.code.toNat - 0xDC00)

/-- Units that are one after another a single one without a mark or the two of a code point. -/
inductive Blocks : List TracedUnit → Prop
  | nil : Blocks []
  | single {unit : TracedUnit} {rest : List TracedUnit} (bare : unit.half = none)
    (blocks : Blocks rest) : Blocks (unit :: rest)
  | pair {digits : List HexDigit} {high low : TracedUnit} {rest : List TracedUnit}
    (twins : Twins digits high low) (blocks : Blocks rest) : Blocks (high :: low :: rest)

/-- A source that writes a code point by its number and needs two units for it. -/
def Wide (source : List CodeUnit) : Prop :=
  ∃ digits, source = braced digits ∧ 0xFFFF < codePointOf digits

inductive Narrow : List CodeUnit → Prop
  | bare (unit : CodeUnit) : Narrow [unit]
  | identity (unit : CodeUnit) : Narrow [.backslash, unit]
  | four (first second third fourth : HexDigit) :
    Narrow [.backslash, 0x75, first.unit, second.unit, third.unit, fourth.unit]
  | braced (digits : List HexDigit) (small : codePointOf digits ≤ 0xFFFF) : Narrow (braced digits)

theorem number_eq_codePointOf (digits : List HexDigit) :
    HexDigit.number digits = codePointOf digits :=
  Grammar.number_eq_numeral digits

theorem braced_inj {digits others : List HexDigit} (same : braced digits = braced others) :
    digits = others := by
  have spelled : digits.map (·.unit) = others.map (·.unit) :=
    List.append_cancel_right (List.cons.inj (List.cons.inj (List.cons.inj same).2).2).2
  exact HexDigit.units_inj spelled

theorem Narrow.not_wide {source : List CodeUnit} (narrow : Narrow source) : ¬Wide source := by
  rintro ⟨digits, written, wide⟩
  cases narrow with
  | bare unit => exact List.cons_ne_nil _ _ (List.cons.inj written).2.symm
  | identity unit => exact List.cons_ne_nil _ _ (List.cons.inj (List.cons.inj written).2).2.symm
  | four first second third fourth =>
    exact first.unit_ne_openBrace (List.cons.inj (List.cons.inj (List.cons.inj written).2).2).1
  | braced others small =>
    cases braced_inj written
    exact Nat.not_lt_of_le small wide

namespace Construct

variable {construct : Construct}

theorem twins {digits : List HexDigit} (wide : 0xFFFF < HexDigit.number digits)
    (inRange : HexDigit.number digits ≤ maxCodePoint) (start : Nat) :
    Twins digits ⟨highHalf (HexDigit.number digits), start, braced digits, some .high⟩
      ⟨lowHalf (HexDigit.number digits), start, braced digits, some .low⟩ where
  paired := ⟨rfl, rfl, rfl, rfl⟩
  source := rfl
  above := number_eq_codePointOf digits ▸ wide
  below := number_eq_codePointOf digits ▸ inRange
  high_range := CodeUnit.isHighSurrogate_iff.1 (highHalf_isHighSurrogate inRange)
  low_range := CodeUnit.isLowSurrogate_iff.1 (lowHalf_isLowSurrogate _)
  joined := (number_eq_codePointOf digits).symm.trans (joinHalves_halves wide inRange).symm

theorem exists_braced_of_pair {high low : CodeUnit} (pair : construct.value = .pair high low) :
    ∃ digits, construct.source = braced digits ∧ 0xFFFF < HexDigit.number digits ∧
      HexDigit.number digits ≤ maxCodePoint ∧ high = highHalf (HexDigit.number digits) ∧
      low = lowHalf (HexDigit.number digits) := by
  cases construct with
  | escape inner =>
    cases inner with
    | codePoint digits nonempty inRange =>
      simp only [value, Escape.value, Decoded.ofCodePoint] at pair
      split at pair
      · contradiction
      · next wide =>
        cases pair
        exact ⟨digits, rfl, Nat.lt_of_not_le wide, inRange, rfl, rfl⟩
    | _ => contradiction
  | _ => contradiction

/-- The units of a construct are a block, or none, in front of other blocks. -/
theorem blocks_trace (construct : Construct) (start : Nat) {rest : List TracedUnit}
    (blocks : Blocks rest) : Blocks (construct.trace start ++ rest) := by
  rw [trace]
  cases value : construct.value with
  | nothing => exact blocks
  | unit code => exact .single rfl blocks
  | pair high low =>
    obtain ⟨digits, source, wide, inRange, rfl, rfl⟩ := exists_braced_of_pair value
    rw [source]
    exact .pair (twins wide inRange start) blocks

theorem blocks_traceAll (start : Nat) (constructs : List Construct) :
    Blocks (traceAll start constructs) := by
  induction constructs generalizing start with
  | nil => exact .nil
  | cons construct rest ih =>
    rw [traceAll_cons]
    exact construct.blocks_trace start (ih _)

theorem marked_iff_wide {start : Nat} {unit : TracedUnit} (given : unit ∈ construct.trace start) :
    unit.half ≠ none ↔ Wide construct.source := by
  constructor
  · intro marked
    rw [trace] at given
    cases value : construct.value with
    | nothing =>
      rw [value] at given
      contradiction
    | unit code =>
      rw [value] at given
      cases List.mem_singleton.1 given
      contradiction
    | pair high low =>
      obtain ⟨digits, source, wide, -⟩ := exists_braced_of_pair value
      exact ⟨digits, source, number_eq_codePointOf digits ▸ wide⟩
  · rintro ⟨digits, source, wide⟩
    rw [← number_eq_codePointOf] at wide
    rw [trace_of_braced source wide] at given
    rcases List.mem_cons.1 given with high | low
    · rw [high]
      exact Option.some_ne_none _
    · rw [List.mem_singleton.1 low]
      exact Option.some_ne_none _

end Construct

namespace Token

variable {kind : TokenKind} {text : List CodeUnit} {token : Token}

structure MarksExact (text : List CodeUnit) (token : Token) : Prop where
  placed : ∀ unit ∈ token.units, text.extract unit.start unit.stop = unit.source
  blocks : Blocks token.units
  marked_iff : ∀ unit ∈ token.units, unit.half ≠ none ↔ Wide unit.source
  unmarked : ∀ unit ∈ token.units, Narrow unit.source → unit.half = none

theorem extract_eq_source (read : parse kind text = .ok token) {unit : TracedUnit}
    (member : unit ∈ token.units) : text.extract unit.start unit.stop = unit.source := by
  obtain ⟨construct, left, right, source, start, split⟩ := exists_source read member
  rw [TracedUnit.stop, TracedUnit.length, source, ← start, split]
  simp

theorem marks_exact (read : parse kind text = .ok token) : MarksExact text token := by
  have marked_iff : ∀ unit ∈ token.units, unit.half ≠ none ↔ Wide unit.source := by
    intro unit member
    obtain ⟨_, construct, _, _, given, -, source, -⟩ := exists_construct member
    rw [source]
    exact Construct.marked_iff_wide given
  refine ⟨fun unit member => extract_eq_source read member, ?_, marked_iff, ?_⟩
  · rw [units_eq]
    exact Construct.blocks_traceAll 1 token.constructs
  · intro unit member narrow
    exact Decidable.not_not.1 fun marked => narrow.not_wide ((marked_iff unit member).1 marked)

/-- A literal of a pair after a bare high surrogate and before a low one, with others that are
escaped: in four digits, in braces and after a backslash. -/
def crowdedPair : List CodeUnit :=
  [.doubleQuote, 0xD83D, .backslash, 0x75, .openBrace, 0x31, 0x46, 0x36, 0x30, 0x30, .closeBrace,
    0xDE00, .backslash, 0x75, 0x44, 0x38, 0x33, 0x44, .backslash, 0x75, .openBrace, 0x44, 0x45,
    0x30, 0x30, .closeBrace, .backslash, 0xD83D, .doubleQuote]

theorem marks_exact_crowdedPair :
    ∃ token, parse .string crowdedPair = .ok token ∧
      token.units.map (·.half) =
        [none, some .high, some .low, none, none, none, none] ∧ MarksExact crowdedPair token :=
  ⟨_, rfl, by decide, @marks_exact .string crowdedPair _ rfl⟩

end Token

end Unquote
