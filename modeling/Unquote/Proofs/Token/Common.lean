import Unquote.Proofs.Body.Cut
import Unquote.Proofs.Token.Enclosed
import Unquote.Proofs.Token.Provenance

/-! What literals and templates have in common. A body without legacy escapes that holds neither a
backtick nor the opening of a substitution is the same in quotes as in backticks, and the first
construct that a template takes otherwise decides how it fails. -/

namespace Unquote

/-- A unit that stands for itself where a template would end. -/
def TracedUnit.EndsTemplate (text : List CodeUnit) (unit : TracedUnit) : Prop :=
  unit.source = [.backtick] ∨ unit.source = [.dollar] ∧ text[unit.stop]? = some .openBrace

instance (text : List CodeUnit) (unit : TracedUnit) : Decidable (unit.EndsTemplate text) :=
  inferInstanceAs (Decidable (_ ∨ _ ∧ _))

def TracedUnit.BreaksLiteral (quote : Quote) (unit : TracedUnit) : Prop :=
  unit.source = [quote.unit] ∨ unit.source.head? = some .lineFeed ∨
    unit.source.head? = some .carriageReturn

instance (quote : Quote) (unit : TracedUnit) : Decidable (unit.BreaksLiteral quote) :=
  inferInstanceAs (Decidable (_ ∨ _ ∨ _))

namespace Construct

def EndsTemplate (next : Option CodeUnit) : Construct → Prop
  | raw unit => unit = .backtick ∨ unit = .dollar ∧ next = some .openBrace
  | _ => False

def IsLegacy (construct : Construct) : Prop :=
  ∃ escape : Escape, construct = .escape escape ∧ escape.isLegacy

theorem blocked_of_not_admits {quote : Quote} {next : Option CodeUnit} {construct : Construct}
    (admitted : StringLiteral.Admits quote next construct)
    (refused : ¬Template.Admits next construct) :
    construct.EndsTemplate next ∨ construct.IsLegacy := by
  cases construct with
  | raw unit =>
    refine Or.inl (Classical.byContradiction fun inside => refused ?_)
    obtain ⟨notBacktick, notSubstitution⟩ := not_or.1 inside
    exact ⟨notBacktick, admitted.2.1, notSubstitution, fun joined => admitted.2.2.2 joined.1⟩
  | crlf => exact False.elim admitted
  | escape inner =>
    cases old : inner.isLegacy with
    | false => exact absurd ⟨old, admitted⟩ refused
    | true => exact Or.inr ⟨inner, rfl, old⟩

theorem not_admits_of_endsTemplate {next : Option CodeUnit} {construct : Construct}
    (ends : construct.EndsTemplate next) : ¬Template.Admits next construct := by
  intro admitted
  cases construct with
  | raw unit =>
    rcases ends with backtick | substitution
    · exact admitted.1 backtick
    · exact admitted.2.2.1 substitution
  | _ => exact ends

theorem not_admits_of_isLegacy {next : Option CodeUnit} {construct : Construct}
    (legacy : construct.IsLegacy) : ¬Template.Admits next construct := by
  obtain ⟨escape, rfl, old⟩ := legacy
  intro admitted
  have modern : escape.isLegacy = false := admitted.1
  rw [old] at modern
  contradiction

end Construct

namespace Template

variable {quote : Quote} {before after constructs : List Construct} {construct : Construct}

theorem exists_overrun
    (ends : construct.EndsTemplate (Construct.sourceAll after ++ [CodeUnit.backtick]).head?) :
    ∃ mark unit rest, Construct.sourceAll (construct :: after) ++ [.backtick] =
      rules.delimiter mark ++ unit :: rest := by
  cases construct with
  | raw unit =>
    rcases ends with rfl | ⟨rfl, brace⟩
    · obtain ⟨next, rest, same⟩ := List.exists_cons_of_ne_nil
        (List.append_ne_nil_of_right_ne_nil (Construct.sourceAll after) (List.cons_ne_nil _ _))
      exact ⟨.backtick, next, rest, congrArg (CodeUnit.backtick :: ·) same⟩
    · cases text : Construct.sourceAll after with
      | nil =>
        rw [text] at brace
        exact absurd brace (by decide)
      | cons first more =>
        rw [text] at brace
        cases brace
        obtain ⟨next, rest, same⟩ := List.exists_cons_of_ne_nil
          (List.append_ne_nil_of_right_ne_nil more (List.cons_ne_nil CodeUnit.backtick []))
        refine ⟨.substitution, next, rest, ?_⟩
        rw [Construct.sourceAll_cons, text, ← same]
        rfl
  | _ => exact False.elim ends

theorem read_of_endsTemplate
    (spelled : rules.Spelled before (Construct.sourceAll (construct :: after) ++ [.backtick]))
    (ends : construct.EndsTemplate (Construct.sourceAll after ++ [CodeUnit.backtick]).head?) :
    ∃ pos, Body.read rules.step
      (Construct.sourceAll (before ++ construct :: after) ++ [.backtick]) =
        .error ⟨.pastEnd, pos⟩ := by
  obtain ⟨mark, unit, rest, split⟩ := exists_overrun ends
  rw [split] at spelled
  refine ⟨_, Body.Rules.read_eq_iff.2 ⟨before, _, ?_, spelled, .overrun mark unit rest⟩⟩
  rw [Construct.sourceAll_append, List.append_assoc, split]

theorem step_legacy {escape : Escape} {rest : List CodeUnit} (old : escape.isLegacy)
    (fits : escape.Fits rest.head?) :
    step .backslash (escape.body ++ rest) = .fault .invalidEscape 1 := by
  have more : escape.body ++ rest ≠ [] :=
    List.append_ne_nil_of_left_ne_nil escape.body_ne_nil _
  rw [step_backslash]
  refine Step.ofEscape_eq_fault_iff.2 (Or.inr ⟨more, rfl, rfl, fun other tail split stays => ?_⟩)
  have found := Escape.read?_eq_some_iff.2 ⟨tail, split, stays⟩
  rw [Escape.read?_complete fits] at found
  cases found
  rw [permits_iff, old]
  exact Bool.noConfusion

theorem read_of_isLegacy
    (spelled : rules.Spelled before (Construct.sourceAll (construct :: after) ++ [.backtick]))
    (admitted : StringLiteral.Admits quote (Construct.sourceAll after ++ [CodeUnit.backtick]).head?
      construct) (legacy : construct.IsLegacy) :
    ∃ pos, Body.read rules.step
      (Construct.sourceAll (before ++ construct :: after) ++ [.backtick]) =
        .error ⟨.invalidEscape, pos⟩ := by
  obtain ⟨escape, rfl, old⟩ := legacy
  have split : Construct.sourceAll (.escape escape :: after) ++ [.backtick] =
      .backslash :: (escape.body ++ (Construct.sourceAll after ++ [.backtick])) := by
    simp [Construct.source, Escape.source]
  rw [split] at spelled
  refine ⟨_, Body.Rules.read_eq_iff.2
    ⟨before, _, ?_, spelled, .fault (step_legacy old admitted)⟩⟩
  rw [Construct.sourceAll_append, List.append_assoc, split]

/-- A template reads the body of a literal as the literal does, up to the first construct that it
takes for an end or refuses. -/
theorem spelled_or_blocked
    (spelled : (StringLiteral.rules quote).Spelled constructs [quote.unit]) :
    rules.Spelled constructs [.backtick] ∨
      ∃ before construct after, constructs = before ++ construct :: after ∧
        rules.Spelled before (Construct.sourceAll (construct :: after) ++ [.backtick]) ∧
        StringLiteral.Admits quote (Construct.sourceAll after ++ [CodeUnit.backtick]).head?
          construct ∧
        (construct.EndsTemplate (Construct.sourceAll after ++ [CodeUnit.backtick]).head? ∨
          construct.IsLegacy) := by
  have ticked : (StringLiteral.rules quote).Spelled constructs [.backtick] :=
    (spelled.ended (StringLiteral.quote_not_digit quote)).before (by decide) []
  rcases Construct.spelled_or_first Admits constructs [.backtick] with whole | found
  · exact Or.inl whole
  · obtain ⟨before, construct, after, rfl, shared, refused⟩ := found
    have admitted := (Construct.spelled_append_iff.1 ticked).2.1
    exact Or.inr ⟨before, construct, after, rfl, shared, admitted,
      Construct.blocked_of_not_admits admitted refused⟩

theorem admits_of_spelled
    (spelled : rules.Spelled (before ++ construct :: after) [.backtick]) :
    Admits (Construct.sourceAll after ++ [CodeUnit.backtick]).head? construct :=
  (Construct.spelled_append_iff.1 spelled).2.1

end Template

namespace Construct

variable {quote : Quote} {before after constructs : List Construct} {construct : Construct}

theorem head?_openBrace_iff (quote : Quote) (units : List CodeUnit) :
    (units ++ [quote.unit]).head? = some .openBrace ↔
      (units ++ [CodeUnit.backtick]).head? = some .openBrace := by
  cases units with
  | nil => cases quote <;> decide
  | cons unit rest => exact Iff.rfl

theorem exists_endsTemplate_iff :
    (∃ unit ∈ traceAll 1 constructs,
      unit.EndsTemplate (StringLiteral.enclose quote (sourceAll constructs))) ↔
    ∃ before construct after, constructs = before ++ construct :: after ∧
      construct.EndsTemplate (sourceAll after ++ [CodeUnit.backtick]).head? := by
  apply Iff.intro
  · intro found
    obtain ⟨unit, member, ends⟩ := found
    obtain ⟨before, construct, after, rfl, given, -, source⟩ := exists_of_mem_traceAll member
    refine ⟨before, construct, after, rfl, ?_⟩
    rcases ends with backtick | ⟨dollar, brace⟩
    · rw [source] at backtick
      rw [eq_raw_of_source backtick]
      exact Or.inl rfl
    · rw [source] at dollar
      cases eq_raw_of_source dollar
      cases List.mem_singleton.1 given
      refine Or.inr ⟨rfl, (head?_openBrace_iff quote _).1 ?_⟩
      exact (getElem?_after quote.unit before (raw .dollar) after [quote.unit]).symm.trans brace
  · intro found
    obtain ⟨before, construct, after, rfl, ends⟩ := found
    cases construct with
    | raw unit =>
      have given : ⟨unit, 1 + (sourceAll before).length, [unit], none⟩ ∈
          (raw unit).trace (1 + (sourceAll before).length) := List.mem_singleton_self _
      refine ⟨_, mem_traceAll.2 ⟨before, raw unit, after, rfl, given⟩, ?_⟩
      rcases ends with rfl | ⟨rfl, brace⟩
      · exact Or.inl rfl
      · refine Or.inr ⟨rfl, ?_⟩
        exact (getElem?_after quote.unit before (raw .dollar) after [quote.unit]).trans
          ((head?_openBrace_iff quote _).2 brace)
    | _ => exact False.elim ends

theorem breaksLiteral_of_not_admits {next : Option CodeUnit}
    (admitted : Template.Admits next construct)
    (refused : ¬StringLiteral.Admits quote next construct) (start : Nat) :
    ∃ unit ∈ construct.trace start, unit.BreaksLiteral quote := by
  cases construct with
  | raw unit =>
    refine ⟨_, List.mem_singleton_self _, Classical.byContradiction fun kept => refused ?_⟩
    refine ⟨fun same => kept (Or.inl (congrArg (fun other => [other]) same)), admitted.2.1,
      fun same => kept (Or.inr (Or.inl (congrArg some same))),
      fun same => kept (Or.inr (Or.inr (congrArg some same)))⟩
  | crlf => exact ⟨_, List.mem_singleton_self _, Or.inr (Or.inr rfl)⟩
  | escape inner => exact absurd admitted.2 refused

end Construct

/-- How the two kinds of token treat the same body. -/
structure CommonBody (quote : Quote) (body : List CodeUnit) : Prop where
  shared : ∀ literal, StringLiteral.parse (StringLiteral.enclose quote body) = .ok literal →
    literal.features.octalEscape = false →
    (∀ unit ∈ literal.units, ¬unit.EndsTemplate (StringLiteral.enclose quote body)) →
    ∃ template, Template.parse (Template.enclose .backtick body .backtick) = .ok template ∧
      template.kind = .noSubstitution ∧ template.units = literal.units
  ended : ∀ literal, StringLiteral.parse (StringLiteral.enclose quote body) = .ok literal →
    literal.features.octalEscape = false →
    (∃ unit ∈ literal.units, unit.EndsTemplate (StringLiteral.enclose quote body)) →
    ∃ pos, Template.parse (Template.enclose .backtick body .backtick) = .error ⟨.pastEnd, pos⟩
  legacy : ∀ literal, StringLiteral.parse (StringLiteral.enclose quote body) = .ok literal →
    literal.features.octalEscape →
    ∃ pos, Template.parse (Template.enclose .backtick body .backtick) =
        .error ⟨.invalidEscape, pos⟩ ∨
      Template.parse (Template.enclose .backtick body .backtick) = .error ⟨.pastEnd, pos⟩
  quoted : ∀ template,
    Template.parse (Template.enclose .backtick body .backtick) = .ok template →
    (∀ unit ∈ template.units, ¬unit.BreaksLiteral quote) →
    ∃ literal, StringLiteral.parse (StringLiteral.enclose quote body) = .ok literal ∧
      literal.units = template.units ∧ literal.features.octalEscape = false

section

variable {quote : Quote} {body : List CodeUnit} {literal : StringLiteral} {template : Template}

/-- Where a template stops short of the end of a literal's body, and why. -/
theorem shared_or_blocked
    (read : StringLiteral.parse (StringLiteral.enclose quote body) = .ok literal) :
    (Template.rules.Spelled literal.constructs [.backtick] ∧
      Template.parse (Template.enclose .backtick body .backtick) =
        .ok ⟨.backtick, literal.constructs, .backtick⟩) ∨
    ((∃ unit ∈ literal.units, unit.EndsTemplate (StringLiteral.enclose quote body)) ∧
      ∃ pos, Template.parse (Template.enclose .backtick body .backtick) =
        .error ⟨.pastEnd, pos⟩) ∨
    (literal.features.octalEscape ∧
      ∃ pos, Template.parse (Template.enclose .backtick body .backtick) =
        .error ⟨.invalidEscape, pos⟩) := by
  obtain ⟨-, rfl, spelled⟩ := StringLiteral.parse_enclose_iff.1 read
  rcases Template.spelled_or_blocked spelled with
    whole | ⟨before, construct, after, same, shared, admitted, ends | legacy⟩
  · exact Or.inl ⟨whole, Template.parse_enclose_iff.2 ⟨rfl, rfl, rfl, whole⟩⟩
  · refine Or.inr (Or.inl ⟨?_, ?_⟩)
    · exact Construct.exists_endsTemplate_iff.2 ⟨before, construct, after, same, ends⟩
    · rw [same]
      obtain ⟨pos, failed⟩ := Template.read_of_endsTemplate shared ends
      exact ⟨pos, Template.parse_enclose_eq_error_iff.2 failed⟩
  · refine Or.inr (Or.inr ⟨?_, ?_⟩)
    · obtain ⟨escape, rfl, old⟩ := legacy
      exact Construct.featuresAll_octalEscape_iff.2 ⟨escape, by simp [same], old⟩
    · rw [same]
      obtain ⟨pos, failed⟩ := Template.read_of_isLegacy shared admitted legacy
      exact ⟨pos, Template.parse_enclose_eq_error_iff.2 failed⟩

theorem not_octalEscape_of_spelled {constructs : List Construct} {tail : List CodeUnit}
    (spelled : Template.rules.Spelled constructs tail) :
    (Construct.featuresAll constructs).octalEscape = false := by
  refine Bool.eq_false_iff.2 fun noted => ?_
  obtain ⟨escape, member, old⟩ := Construct.featuresAll_octalEscape_iff.1 noted
  obtain ⟨before, after, rfl⟩ := List.append_of_mem member
  exact Construct.not_admits_of_isLegacy ⟨escape, rfl, old⟩
    (Construct.spelled_append_iff.1 spelled).2.1

theorem not_endsTemplate_of_spelled
    (read : StringLiteral.parse (StringLiteral.enclose quote body) = .ok literal)
    (spelled : Template.rules.Spelled literal.constructs [.backtick]) :
    ∀ unit ∈ literal.units, ¬unit.EndsTemplate (StringLiteral.enclose quote body) := by
  obtain ⟨-, rfl, -⟩ := StringLiteral.parse_enclose_iff.1 read
  intro unit member ends
  obtain ⟨before, construct, after, same, stops⟩ :=
    Construct.exists_endsTemplate_iff.1 ⟨unit, member, ends⟩
  rw [same] at spelled
  exact Construct.not_admits_of_endsTemplate stops (Template.admits_of_spelled spelled)

theorem quoted_of_template
    (read : Template.parse (Template.enclose .backtick body .backtick) = .ok template)
    (kept : ∀ unit ∈ template.units, ¬unit.BreaksLiteral quote) :
    ∃ literal, StringLiteral.parse (StringLiteral.enclose quote body) = .ok literal ∧
      literal.units = template.units ∧ literal.features.octalEscape = false := by
  obtain ⟨-, -, rfl, ticked⟩ := Template.parse_enclose_iff.1 read
  have spelled : Template.rules.Spelled template.constructs [quote.unit] :=
    (ticked.ended (by decide)).before (StringLiteral.quote_apart quote) []
  rcases Construct.spelled_or_first (StringLiteral.Admits quote) template.constructs [quote.unit]
    with whole | ⟨before, construct, after, same, -, refused⟩
  · exact ⟨⟨quote, template.constructs⟩, StringLiteral.parse_enclose_iff.2 ⟨rfl, rfl, whole⟩, rfl,
      not_octalEscape_of_spelled spelled⟩
  · rw [same] at spelled
    obtain ⟨unit, given, breaks⟩ := Construct.breaksLiteral_of_not_admits
      (Construct.spelled_append_iff.1 spelled).2.1 refused (1 + (Construct.sourceAll before).length)
    exact absurd breaks
      (kept unit (Construct.mem_traceAll.2 ⟨before, construct, after, same, given⟩))

end

/-- Literals and templates agree on the bodies that both can hold, and a template fails on the
others at the first construct that it does not take. -/
theorem common_body (quote : Quote) (body : List CodeUnit) : CommonBody quote body where
  shared := by
    intro literal read modern kept
    rcases shared_or_blocked read with ⟨-, same⟩ | ⟨⟨unit, member, ends⟩, -⟩ | ⟨noted, -⟩
    · exact ⟨_, same, rfl, rfl⟩
    · exact absurd ends (kept unit member)
    · rw [modern] at noted
      contradiction
  ended := by
    intro literal read modern found
    obtain ⟨unit, member, ends⟩ := found
    rcases shared_or_blocked read with ⟨spelled, -⟩ | ⟨-, failed⟩ | ⟨noted, -⟩
    · exact absurd ends (not_endsTemplate_of_spelled read spelled unit member)
    · exact failed
    · rw [modern] at noted
      contradiction
  legacy := by
    intro literal read noted
    rcases shared_or_blocked read with ⟨spelled, -⟩ | ⟨-, pos, failed⟩ | ⟨-, pos, failed⟩
    · have modern : literal.features.octalEscape = false := not_octalEscape_of_spelled spelled
      rw [modern] at noted
      contradiction
    · exact ⟨pos, Or.inr failed⟩
    · exact ⟨pos, Or.inl failed⟩
  quoted _ read kept := quoted_of_template read kept

/-- A line continuation and a dollar are common to both kinds, the opening of a substitution and an
octal escape are not. -/
theorem common_body_short :
    (∃ template, Template.parse (Template.enclose .backtick [.backslash, .lineFeed, .dollar]
        .backtick) = .ok template ∧ template.kind = .noSubstitution ∧
        template.units = [⟨.dollar, 3, [.dollar], none⟩]) ∧
    (∃ pos, Template.parse (Template.enclose .backtick [.dollar, .openBrace] .backtick) =
      .error ⟨.pastEnd, pos⟩) ∧
    (∃ pos, Template.parse (Template.enclose .backtick [.backslash, 0x31] .backtick) =
        .error ⟨.invalidEscape, pos⟩ ∨
      Template.parse (Template.enclose .backtick [.backslash, 0x31] .backtick) =
        .error ⟨.pastEnd, pos⟩) ∧
    ∃ literal, StringLiteral.parse (StringLiteral.enclose .single [.doubleQuote]) = .ok literal ∧
      literal.units = [⟨.doubleQuote, 1, [.doubleQuote], none⟩] ∧
      literal.features.octalEscape = false :=
  ⟨(common_body .double [.backslash, .lineFeed, .dollar]).shared _ rfl rfl (by decide),
    (common_body .double [.dollar, .openBrace]).ended _ rfl rfl (by decide),
    (common_body .double [.backslash, 0x31]).legacy _ rfl rfl,
    (common_body .single [.doubleQuote]).quoted _ rfl (by decide)⟩

end Unquote
