import Unquote.Proofs.Token.Enclosed
import Unquote.Proofs.Token.Provenance

/-! One body put after another. The constructs of both stay what they were unless the end of the
first takes in the beginning of the second: an octal escape a further digit, a carriage return its
line feed, a dollar its brace. A line continuation between the bodies keeps them apart. -/

namespace Unquote

/-- Units that belong together where one ends a template body and the other begins the next. -/
def Joins (last next : CodeUnit) : Prop :=
  last = .dollar ∧ next = .openBrace ∨ last = .carriageReturn ∧ next = .lineFeed ∨
    last = 0x30 ∧ next.isDigit

instance (last next : CodeUnit) : Decidable (Joins last next) :=
  inferInstanceAs (Decidable (_ ∨ _ ∨ _))

theorem not_joins_of_not_isJoining {last next : CodeUnit} (apart : next.isJoining = false) :
    ¬Joins last next := by
  simp only [CodeUnit.isJoining, decide_eq_false_iff_not, not_or] at apart
  rintro (⟨-, brace⟩ | ⟨-, feed⟩ | ⟨-, digit⟩)
  · exact apart.2.2 brace
  · exact apart.2.1 feed
  · exact apart.1 digit

/-- The source of an escape that a digit put after it may change: an octal escape, or a zero. -/
def TakesDigit (source : List CodeUnit) : Prop :=
  ∃ digit rest, source = .backslash :: digit :: rest ∧ digit.isOctalDigit

def EndsTakingDigit (literal : StringLiteral) (body : List CodeUnit) : Prop :=
  ∃ unit ∈ literal.units.getLast?, unit.stop = 1 + body.length ∧ TakesDigit unit.source

namespace Escape

variable {escape : Escape} {next : Option CodeUnit}

/-- An escape at the end of its text stays what it is before any unit that it does not take in. -/
theorem Fits.extend (fits : escape.Fits none) (notFeed : next ≠ some .lineFeed)
    (apart : next.any (·.isDigit) → ¬TakesDigit escape.source) : escape.Fits next := by
  cases escape with
  | lineContinuation lineBreak =>
    cases lineBreak with
    | carriageReturn => exact notFeed
    | _ => trivial
  | nul => exact Bool.eq_false_iff.2 fun digit => apart digit ⟨0x30, [], rfl, rfl⟩
  | octal first more small =>
    have noDigit : ¬next.any (·.isDigit) := fun digit =>
      apart digit ⟨first.unit, _, rfl, OctalDigit.unit_isOctalDigit first⟩
    have noOctal : next.any (·.isOctalDigit) = false := by
      cases next with
      | none => rfl
      | some unit => exact Bool.eq_false_iff.2 (mt CodeUnit.isDigit_of_isOctalDigit noDigit)
    exact ⟨Or.inr noOctal, fun zero alone => absurd (fits.2 zero alone) Bool.false_ne_true⟩
  | _ => trivial

theorem Fits.extend_joins (fits : escape.Fits none) (modern : escape.isLegacy = false)
    (apart : ∀ last ∈ escape.source.getLast?, ∀ unit ∈ next, ¬Joins last unit) :
    escape.Fits next := by
  cases escape with
  | lineContinuation lineBreak =>
    cases lineBreak with
    | carriageReturn =>
      exact fun feed => apart .carriageReturn rfl _ feed (Or.inr (Or.inl ⟨rfl, rfl⟩))
    | _ => trivial
  | nul =>
    cases next with
    | none => rfl
    | some unit =>
      exact Bool.eq_false_iff.2 fun digit => apart 0x30 rfl unit rfl (Or.inr (Or.inr ⟨rfl, digit⟩))
  | octal first more small => contradiction
  | _ => trivial

end Escape

namespace Construct

theorem value_ne_nothing {construct : Construct} (takes : TakesDigit construct.source) :
    construct.value ≠ .nothing := by
  intro nothing
  obtain ⟨lineBreak, written⟩ := exists_continuation nothing
  obtain ⟨digit, rest, same, octal⟩ := takes
  have breaks := isLineBreak_of_continuation lineBreak
  rw [same] at written
  rw [← (List.cons.inj written).2] at breaks
  have apart : ∀ unit : CodeUnit, unit.isOctalDigit → ¬unit.isLineBreak := by
    intro unit octal breaks
    simp only [CodeUnit.isOctalDigit, CodeUnit.isLineBreak, decide_eq_true_eq] at octal breaks
    rcases breaks with rfl | rfl | rfl | rfl <;> exact absurd octal (by decide)
  exact apart digit octal breaks

theorem mem_getLast?_sourceAll {constructs : List Construct} {construct : Construct}
    {unit : CodeUnit} (last : construct ∈ constructs.getLast?)
    (final : unit ∈ construct.source.getLast?) : unit ∈ (sourceAll constructs).getLast? := by
  obtain ⟨init, rfl⟩ := List.getLast?_eq_some_iff.1 last
  rw [sourceAll_append, sourceAll_cons, sourceAll_nil, List.append_nil, List.getLast?_append,
    Option.mem_def.1 final]
  rfl

end Construct

namespace StringLiteral

variable {quote : Quote} {first second : List Construct}

theorem head?_ne_lineFeed (spelled : (rules quote).Spelled second [quote.unit]) :
    (Construct.sourceAll second ++ [quote.unit]).head? ≠ some .lineFeed := by
  cases second with
  | nil => cases quote <;> exact nofun
  | cons construct rest =>
    cases construct with
    | raw unit => exact fun feed => spelled.1.2.2.1 (Option.some.inj feed)
    | crlf => exact False.elim spelled.1
    | escape inner => exact nofun

theorem spelled_append (firstSpelled : (rules quote).Spelled first [quote.unit])
    (secondSpelled : (rules quote).Spelled second [quote.unit])
    (apart : (Construct.sourceAll second ++ [quote.unit]).head?.any (·.isDigit) →
      ∀ construct ∈ first.getLast?, ¬TakesDigit construct.source) :
    (rules quote).Spelled (first ++ second) [quote.unit] := by
  have notFeed := head?_ne_lineFeed secondSpelled
  refine Construct.spelled_append_iff.2 ⟨firstSpelled.follow_last ?_, secondSpelled⟩
  intro construct last admitted
  have ended : Admits quote none construct :=
    (rules quote).admits_ended (quote_not_digit quote) admitted
  cases construct with
  | escape inner => exact ended.extend notFeed fun digit => apart digit _ last
  | _ => exact ended

theorem not_takesDigit_of_getLast? {literal : StringLiteral}
    (apart : ¬EndsTakingDigit literal (Construct.sourceAll literal.constructs)) :
    ∀ construct ∈ literal.constructs.getLast?, ¬TakesDigit construct.source := by
  intro construct last takes
  apply apart
  obtain ⟨init, split⟩ := List.getLast?_eq_some_iff.1 last
  obtain ⟨unit, final, stop, source⟩ :=
    Construct.getLast?_trace (Construct.value_ne_nothing takes)
      (1 + (Construct.sourceAll init).length)
  refine ⟨unit, ?_, ?_, source ▸ takes⟩
  · rw [units, split, Construct.traceAll_append, Construct.traceAll_cons, Construct.traceAll_nil,
      List.append_nil, List.getLast?_append, Option.mem_def.1 final]
    rfl
  · rw [stop, split]
    simp [Construct.width, Nat.add_assoc]

theorem parse_append {left right : List CodeUnit} {first second : StringLiteral}
    (leftRead : parse (enclose quote left) = .ok first)
    (rightRead : parse (enclose quote right) = .ok second)
    (apart : ¬(right.head?.any (·.isDigit) ∧ EndsTakingDigit first left)) :
    ∃ literal, parse (enclose quote (left ++ right)) = .ok literal ∧
      literal.units = first.units ++ second.units.map (·.shift left.length) ∧
      literal.features = first.features ∪ second.features := by
  obtain ⟨-, rfl, leftSpelled⟩ := parse_enclose_iff.1 leftRead
  obtain ⟨-, rfl, rightSpelled⟩ := parse_enclose_iff.1 rightRead
  have spelled : (rules quote).Spelled (first.constructs ++ second.constructs) [quote.unit] := by
    refine spelled_append leftSpelled rightSpelled fun digit => ?_
    refine not_takesDigit_of_getLast? fun ends => apart ⟨?_, ends⟩
    cases text : Construct.sourceAll second.constructs with
    | nil =>
      rw [text] at digit
      cases quote <;> contradiction
    | cons unit rest =>
      rw [text] at digit
      exact digit
  refine ⟨⟨quote, first.constructs ++ second.constructs⟩, ?_, ?_, ?_⟩
  · exact parse_enclose_iff.2 ⟨rfl, (Construct.sourceAll_append ..).symm, spelled⟩
  · rw [units, Construct.traceAll_append, Construct.traceAll_shift]
    rfl
  · exact Construct.featuresAll_append ..

/-- Where the condition fails, the escape takes the digit. -/
example : (parse (enclose .double ([.backslash, 0x31] ++ [0x31]))).map (·.units) =
    .ok [⟨9, 1, [.backslash, 0x31, 0x31], none⟩] := rfl

def continued (lineBreak : LineBreak) : Construct := .escape (.lineContinuation lineBreak)

theorem continued_spelled (quote : Quote) (lineBreak : LineBreak) :
    (rules quote).Spelled [continued lineBreak] [quote.unit] := by
  refine ⟨?_, trivial⟩
  have fits : (Escape.lineContinuation lineBreak).Fits none := by
    cases lineBreak <;> first | trivial | exact nofun
  exact fits.before (quote_apart quote)

theorem continued_not_takesDigit (lineBreak : LineBreak) :
    ¬TakesDigit (continued lineBreak).source :=
  fun takes => Construct.value_ne_nothing takes rfl

theorem parse_append_continuation {left right : List CodeUnit} {first second : StringLiteral}
    (leftRead : parse (enclose quote left) = .ok first)
    (rightRead : parse (enclose quote right) = .ok second) (lineBreak : LineBreak) :
    ∃ literal, parse (enclose quote (left ++ lineBreak.continuation ++ right)) = .ok literal ∧
      literal.units = first.units ++
        second.units.map (·.shift (left ++ lineBreak.continuation).length) ∧
      literal.features = first.features ∪ second.features := by
  obtain ⟨-, rfl, leftSpelled⟩ := parse_enclose_iff.1 leftRead
  obtain ⟨-, rfl, rightSpelled⟩ := parse_enclose_iff.1 rightRead
  have prefixSpelled : (rules quote).Spelled (first.constructs ++ [continued lineBreak])
      [quote.unit] :=
    spelled_append leftSpelled (continued_spelled quote lineBreak) nofun
  have spelled : (rules quote).Spelled
      (first.constructs ++ [continued lineBreak] ++ second.constructs) [quote.unit] := by
    refine spelled_append prefixSpelled rightSpelled fun _ construct last => ?_
    rw [List.getLast?_concat] at last
    cases last
    exact continued_not_takesDigit lineBreak
  have source : Construct.sourceAll (first.constructs ++ [continued lineBreak]) =
      Construct.sourceAll first.constructs ++ lineBreak.continuation := by
    rw [Construct.sourceAll_append, Construct.sourceAll_cons, Construct.sourceAll_nil,
      List.append_nil]
    rfl
  refine ⟨⟨quote, first.constructs ++ [continued lineBreak] ++ second.constructs⟩, ?_, ?_, ?_⟩
  · refine parse_enclose_iff.2 ⟨rfl, ?_, spelled⟩
    rw [Construct.sourceAll_append, source]
  · rw [units, Construct.traceAll_append, Construct.traceAll_shift, source,
      Construct.traceAll_append, Construct.traceAll_cons, Construct.traceAll_nil]
    exact congrArg (· ++ _) (List.append_nil _)
  · rw [features, Construct.featuresAll_append, Construct.featuresAll_append]
    exact congrArg (· ∪ _) (Features.union_empty _)

end StringLiteral

namespace Template

theorem admits_extend {construct : Construct} {next : Option CodeUnit}
    (admitted : Admits none construct)
    (apart : ∀ last ∈ construct.source.getLast?, ∀ unit ∈ next, ¬Joins last unit) :
    Admits next construct := by
  cases construct with
  | raw unit =>
    refine ⟨admitted.1, admitted.2.1, ?_, ?_⟩
    · exact fun substitution =>
        apart unit rfl .openBrace substitution.2 (Or.inl ⟨substitution.1, rfl⟩)
    · exact fun joined =>
        apart unit rfl .lineFeed joined.2 (Or.inr (Or.inl ⟨joined.1, rfl⟩))
  | crlf => trivial
  | escape inner => exact ⟨admitted.1, admitted.2.extend_joins admitted.1 apart⟩

theorem parse_append {opening middle : Opening} {closing : Closing} {left right : List CodeUnit}
    {first second : Template} (leftRead : parse (enclose opening left .backtick) = .ok first)
    (rightRead : parse (enclose middle right closing) = .ok second)
    (apart : ∀ last ∈ left.getLast?, ∀ next ∈ right.head?, ¬Joins last next) :
    ∃ template, parse (enclose opening (left ++ right) closing) = .ok template ∧
      template.units = first.units ++ second.units.map (·.shift left.length) := by
  obtain ⟨-, -, rfl, leftSpelled⟩ := parse_enclose_iff.1 leftRead
  obtain ⟨-, -, rfl, rightSpelled⟩ := parse_enclose_iff.1 rightRead
  have spelled : rules.Spelled (first.constructs ++ second.constructs) closing.units := by
    refine Construct.spelled_append_iff.2 ⟨leftSpelled.follow_last ?_, rightSpelled⟩
    intro construct last admitted
    have ended : Admits none construct := rules.admits_ended (by decide) admitted
    refine admits_extend ended fun unit final next follows => ?_
    cases text : Construct.sourceAll second.constructs with
    | nil =>
      obtain ⟨delimiter, rest, same, other⟩ := rules.delimiter_apart closing
      have closes : closing.units = delimiter :: rest := same
      rw [text, closes] at follows
      cases follows
      exact not_joins_of_not_isJoining other
    | cons head rest =>
      rw [text] at follows
      cases follows
      exact apart unit (Construct.mem_getLast?_sourceAll last final) _ (by rw [text]; rfl)
  refine ⟨⟨opening, first.constructs ++ second.constructs, closing⟩, ?_, ?_⟩
  · exact parse_enclose_iff.2 ⟨rfl, rfl, (Construct.sourceAll_append ..).symm, spelled⟩
  · rw [units, Construct.traceAll_append, Construct.traceAll_shift]
    rfl

end Template

/-- Bodies of literals and of templates may be put one after another, where the seam leaves the
constructs on both sides what they were. Then the token has the units of the first body and, moved
on by its length, those of the second. -/
theorem bodies_concatenate :
    (∀ quote left right first second,
      StringLiteral.parse (StringLiteral.enclose quote left) = .ok first →
      StringLiteral.parse (StringLiteral.enclose quote right) = .ok second →
      ¬(right.head?.any (·.isDigit) ∧ EndsTakingDigit first left) →
      ∃ literal, StringLiteral.parse (StringLiteral.enclose quote (left ++ right)) = .ok literal ∧
        literal.units = first.units ++ second.units.map (·.shift left.length) ∧
        literal.features = first.features ∪ second.features) ∧
    (∀ quote left right first second,
      StringLiteral.parse (StringLiteral.enclose quote left) = .ok first →
      StringLiteral.parse (StringLiteral.enclose quote right) = .ok second →
      ∀ lineBreak : LineBreak, ∃ literal,
        StringLiteral.parse
          (StringLiteral.enclose quote (left ++ lineBreak.continuation ++ right)) = .ok literal ∧
        literal.units = first.units ++
          second.units.map (·.shift (left ++ lineBreak.continuation).length) ∧
        literal.features = first.features ∪ second.features) ∧
    ∀ opening middle closing left right first second,
      Template.parse (Template.enclose opening left .backtick) = .ok first →
      Template.parse (Template.enclose middle right closing) = .ok second →
      (∀ last ∈ left.getLast?, ∀ next ∈ right.head?, ¬Joins last next) →
      ∃ template,
        Template.parse (Template.enclose opening (left ++ right) closing) = .ok template ∧
        template.units = first.units ++ second.units.map (·.shift left.length) :=
  ⟨fun _ _ _ _ _ => StringLiteral.parse_append,
    fun _ _ _ _ _ => StringLiteral.parse_append_continuation,
    fun _ _ _ _ _ _ _ => Template.parse_append⟩

/-- An octal escape before a letter, two digits with a line continuation between them, and a dollar
before a digit. -/
theorem bodies_concatenate_short :
    (∃ literal, StringLiteral.parse (StringLiteral.enclose .double ([.backslash, 0x31] ++ [0x61])) =
        .ok literal ∧
      literal.units = [⟨1, 1, [.backslash, 0x31], none⟩] ++ [⟨0x61, 3, [0x61], none⟩] ∧
      literal.features = .ofOctalEscape ∪ .empty) ∧
    (∃ literal, StringLiteral.parse (StringLiteral.enclose .double ([.backslash, 0x31] ++
          LineBreak.crlf.continuation ++ [0x31])) = .ok literal ∧
      literal.units = [⟨1, 1, [.backslash, 0x31], none⟩] ++ [⟨0x31, 6, [0x31], none⟩] ∧
      literal.features = .ofOctalEscape ∪ .empty) ∧
    ∃ template,
      Template.parse (Template.enclose .closeBrace ([.dollar] ++ [0x31]) .substitution) =
        .ok template ∧
      template.units = [⟨.dollar, 1, [.dollar], none⟩] ++ [⟨0x31, 2, [0x31], none⟩] :=
  ⟨bodies_concatenate.1 .double [.backslash, 0x31] [0x61] _ _ rfl rfl
      fun both => absurd both.1 (by decide),
    bodies_concatenate.2.1 .double [.backslash, 0x31] [0x31] _ _ rfl rfl .crlf,
    bodies_concatenate.2.2 .closeBrace .backtick .substitution [.dollar] [0x31] _ _ rfl rfl
      fun last final next follows => by
        cases final
        cases follows
        decide⟩

end Unquote
