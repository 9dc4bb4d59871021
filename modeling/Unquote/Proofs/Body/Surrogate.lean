import Unquote.Proofs.Body.Rules
import Unquote.Proofs.Text.WellFormed

/-! Surrogates in the body of a token. Only a unit that stands for itself can be one, bare or after
a backslash, and its value is the same unit. So the values of constructs lead a reader of UTF-16
where their sources do, as long as no escape spells half of a pair. -/

namespace Unquote

open Utf16

/-- A surrogate that a Unicode escape spells outside a pair. -/
def TracedUnit.SpellsHalf (unit : TracedUnit) : Prop :=
  unit.half = none ∧ unit.code.isSurrogate ∧ [.backslash, 0x75] <+: unit.source

instance (unit : TracedUnit) : Decidable unit.SpellsHalf :=
  inferInstanceAs (Decidable (_ ∧ _ ∧ _))

theorem CodeUnit.ofNat_plain {number : Nat} (small : number < 0xD800) :
    CodeUnit.isSurrogate (.ofNat number) = false := by
  rw [isSurrogate_eq_false_iff, UInt16.toNat_ofNat']
  omega

theorem HexDigit.unit_plain (digit : HexDigit) : digit.unit.isSurrogate = false := by
  have isHex := digit.isHex
  rw [CodeUnit.isSurrogate_eq_false_iff]
  simp only [CodeUnit.hexValue?, UInt16.le_iff_toNat_le, UInt16.reduceToNat] at isHex
  grind

theorem OctalDigit.unit_plain (digit : OctalDigit) : digit.unit.isSurrogate = false := by
  decide +revert

namespace Escape

variable {escape : Escape}

theorem plain_or_identity (escape : Escape) :
    Plain escape.source ∨ ∃ unit plain, escape = .identity unit plain := by
  have announced : ∀ {letter : CodeUnit} {rest : List CodeUnit}, letter.isSurrogate = false →
      Plain rest → Plain (.backslash :: letter :: rest) :=
    fun letter rest => plain_cons.2 ⟨rfl, plain_cons.2 ⟨letter, rest⟩⟩
  cases escape with
  | identity unit plain => exact Or.inr ⟨unit, plain, rfl⟩
  | control named => exact Or.inl (by cases named <;> decide)
  | lineContinuation lineBreak => exact Or.inl (by cases lineBreak <;> decide)
  | hex high low => exact Or.inl (announced rfl (plain_map HexDigit.unit_plain [high, low]))
  | unicode first second third fourth =>
    exact Or.inl (announced rfl (plain_map HexDigit.unit_plain [first, second, third, fourth]))
  | codePoint digits nonempty inRange =>
    have braced : Plain (digits.map (·.unit) ++ [.closeBrace]) :=
      plain_append.2 ⟨plain_map HexDigit.unit_plain digits, by decide⟩
    exact Or.inl (announced rfl (plain_cons.2 ⟨rfl, braced⟩))
  | octal first more fits =>
    exact Or.inl (announced first.unit_plain (plain_map OctalDigit.unit_plain more))
  | _ => exact Or.inl (by decide)

/-- An escape without a surrogate has a well-formed value, unless it spells half of a pair. -/
theorem run_value (plain : Plain escape.source) {start : Nat}
    (whole : ∀ unit ∈ escape.value.trace start escape.source, ¬unit.SpellsHalf) :
    Place.run .between escape.value.units = some .between := by
  have spelled : ∀ code : CodeUnit, escape.value = .unit code →
      [.backslash, 0x75] <+: escape.source → Place.run .between [code] = some .between := by
    intro code value announced
    refine Place.run_single (Bool.eq_false_iff.2 fun surrogate => ?_)
    refine whole ⟨code, start, escape.source, none⟩ ?_ ⟨rfl, surrogate, announced⟩
    rw [value]
    exact List.mem_singleton_self _
  cases escape with
  | control named => cases named <;> rfl
  | hex high low =>
    have first := high.value_lt
    have second := low.value_lt
    refine Place.run_single (CodeUnit.ofNat_plain ?_)
    simp only [HexDigit.number, List.foldl_cons, List.foldl_nil]
    omega
  | unicode first second third fourth => exact spelled _ rfl ⟨_, rfl⟩
  | codePoint digits nonempty inRange =>
    by_cases small : HexDigit.number digits ≤ 0xFFFF
    · have value : (codePoint digits nonempty inRange).value =
          .unit (.ofNat (HexDigit.number digits)) := if_pos small
      rw [value]
      exact spelled _ value ⟨_, rfl⟩
    · have value : (codePoint digits nonempty inRange).value =
          .pair (highHalf (HexDigit.number digits)) (lowHalf (HexDigit.number digits)) :=
        if_neg small
      rw [value]
      exact Place.run_pair (highHalf_isHighSurrogate inRange) (lowHalf_isLowSurrogate _)
  | octal first more fits =>
    have small := OctalDigit.number_lt fits
    exact Place.run_single (CodeUnit.ofNat_plain (Nat.lt_trans small (by decide)))
  | identity unit itself => exact Place.run_single (plain unit (by simp [source, body]))
  | _ => rfl

end Escape

namespace Construct

variable {construct : Construct} {constructs : List Construct} {place after : Place}

inductive Itself (unit : CodeUnit) : Construct → Prop
  | bare : Itself unit (.raw unit)
  | escaped (plain : Lead.ofUnit unit = .plain) : Itself unit (.escape (.identity unit plain))

theorem Itself.source_cases {unit : CodeUnit} (stands : construct.Itself unit) :
    construct.source = [unit] ∨ construct.source = [.backslash, unit] := by
  cases stands with
  | bare => exact Or.inl rfl
  | escaped plain => exact Or.inr rfl

theorem Itself.trace_eq {unit : CodeUnit} (stands : construct.Itself unit) (start : Nat) :
    construct.trace start = [⟨unit, start, construct.source, none⟩] := by
  cases stands <;> rfl

theorem source_cases (construct : Construct) :
    Plain construct.source ∨
      ∃ unit : CodeUnit, unit.isSurrogate ∧ construct.Itself unit := by
  cases construct with
  | raw unit =>
    cases surrogate : unit.isSurrogate with
    | false => exact Or.inl (plain_cons.2 ⟨surrogate, plain_nil⟩)
    | true => exact Or.inr ⟨unit, surrogate, .bare⟩
  | crlf => exact Or.inl (by decide)
  | escape inner =>
    rcases inner.plain_or_identity with alone | ⟨unit, plain, rfl⟩
    · exact Or.inl alone
    · cases surrogate : unit.isSurrogate with
      | false => exact Or.inl (plain_cons.2 ⟨rfl, plain_cons.2 ⟨surrogate, plain_nil⟩⟩)
      | true => exact Or.inr ⟨unit, surrogate, .escaped plain⟩

theorem itself_of_surrogate {unit : CodeUnit} {lead trail : List CodeUnit}
    (surrogate : unit.isSurrogate) (written : construct.source = lead ++ unit :: trail) :
    construct.Itself unit ∧ trail = [] := by
  rcases construct.source_cases with plain | ⟨other, -, stands⟩
  · have alone := plain unit (by simp [written])
    rw [surrogate] at alone
    contradiction
  · have apart : unit ≠ .backslash := by
      rintro rfl
      contradiction
    have last : unit = other ∧ trail = [] := by
      rcases stands.source_cases with single | double
      · rw [single] at written
        cases lead <;> simp_all
      · rw [double] at written
        rcases lead with _ | ⟨first, _ | ⟨second, more⟩⟩ <;> simp_all
    obtain ⟨rfl, rfl⟩ := last
    exact ⟨stands, rfl⟩

theorem exists_owner {left right : List CodeUnit} {unit : CodeUnit}
    (split : sourceAll constructs = left ++ unit :: right) :
    ∃ before construct after lead trail, constructs = before ++ construct :: after ∧
      construct.source = lead ++ unit :: trail ∧ left = sourceAll before ++ lead ∧
      right = trail ++ sourceAll after := by
  induction constructs generalizing left with
  | nil => exact absurd split.symm (by simp)
  | cons construct rest ih =>
    have parted : (∃ trail, construct.source = left ++ unit :: trail ∧
          right = trail ++ sourceAll rest) ∨
        ∃ more, left = construct.source ++ more ∧ sourceAll rest = more ++ unit :: right := by
      rw [sourceAll_cons] at split
      rcases List.append_eq_append_iff.1 split with later | ⟨more, same, others⟩
      · exact Or.inr later
      · cases more with
        | nil => exact Or.inr ⟨[], by simpa using same.symm, others.symm⟩
        | cons first trail =>
          obtain ⟨rfl, ends⟩ := List.cons.inj others
          exact Or.inl ⟨trail, same, ends⟩
    rcases parted with ⟨trail, written, ends⟩ | ⟨more, rfl, others⟩
    · exact ⟨[], construct, rest, left, trail, rfl, written, rfl, ends⟩
    · obtain ⟨before, other, after, lead, trail, rfl, written, rfl, ends⟩ := ih others
      exact ⟨construct :: before, other, after, lead, trail, rfl, written, by simp, ends⟩

/-- The two halves of a character of the source are constructs that follow each other, and only the
first can have a backslash. -/
theorem exists_halves {left right : List CodeUnit} {high low : CodeUnit}
    (first : high.isSurrogate) (second : low.isSurrogate)
    (split : sourceAll constructs = left ++ high :: low :: right) :
    ∃ before construct after, constructs = before ++ construct :: raw low :: after ∧
      construct.Itself high ∧ (sourceAll before).length + construct.width = left.length + 1 := by
  obtain ⟨before, construct, others, lead, trail, rfl, written, rfl, more⟩ := exists_owner split
  obtain ⟨stands, rfl⟩ := itself_of_surrogate first written
  have width : construct.width = lead.length + 1 := by
    rw [width, written, List.length_append, List.length_singleton]
  cases others with
  | nil => contradiction
  | cons next after =>
    obtain ⟨unit, trail, begins⟩ := List.exists_cons_of_ne_nil next.source_ne_nil
    rw [List.nil_append, sourceAll_cons, begins] at more
    obtain ⟨rfl, -⟩ := List.cons.inj more
    have bare : next = raw low := by
      have written : next.source = [] ++ low :: trail := begins
      cases (itself_of_surrogate second written).1 with
      | bare => rfl
      | escaped plain =>
        cases (List.cons.inj begins).1
        contradiction
    refine ⟨before, construct, after, by rw [bare], stands, ?_⟩
    rw [width, List.length_append, Nat.add_assoc]

theorem run_value {start : Nat} (whole : ∀ unit ∈ construct.trace start, ¬unit.SpellsHalf)
    (ran : place.run construct.source = some after) :
    place.run construct.value.units = some after := by
  have settled : Plain construct.source →
      place = .between ∧ after = .between :=
    fun plain => (Place.run_plain_iff plain construct.source_ne_nil).1 ran
  cases construct with
  | raw unit => exact ran
  | crlf =>
    obtain ⟨rfl, rfl⟩ := settled (by decide)
    rfl
  | escape inner =>
    rcases inner.plain_or_identity with plain | ⟨unit, plain, rfl⟩
    · obtain ⟨rfl, rfl⟩ := settled plain
      exact inner.run_value plain whole
    · cases place with
      | between => exact ran
      | inside => contradiction

theorem run_values {start : Nat} (whole : ∀ unit ∈ traceAll start constructs, ¬unit.SpellsHalf)
    (ran : place.run (sourceAll constructs) = some after) :
    place.run ((traceAll start constructs).map (·.code)) = some after := by
  induction constructs generalizing start place with
  | nil => exact ran
  | cons construct rest ih =>
    rw [traceAll_cons] at whole ⊢
    obtain ⟨here, later⟩ := List.forall_mem_append.1 whole
    rw [sourceAll_cons, Place.run_append, Option.bind_eq_some_iff] at ran
    obtain ⟨middle, first, second⟩ := ran
    have codes : (construct.trace start).map (·.code) = construct.value.units :=
      Decoded.trace_code ..
    rw [List.map_append, codes, Place.run_append, run_value here first, Option.bind_some]
    exact ih later second

end Construct

end Unquote
