import Unquote.Proofs.Body.Rules
import Unquote.Token.Basic

/-! The rules of the two kinds of token. Either kind is read by one scan: an opening delimiter, and
then a body by the rules that go with it. -/

namespace Unquote

section

variable {ε α β : Type} {outcome : Except ε α} {convert : α → β}

theorem map_eq_ok_iff {value : β} :
    outcome.map convert = .ok value ↔ ∃ inner, outcome = .ok inner ∧ convert inner = value := by
  cases outcome <;> simp [Except.map]

theorem map_eq_error_iff {cause : ε} :
    outcome.map convert = .error cause ↔ outcome = .error cause := by
  cases outcome <;> simp [Except.map]

theorem map_map {γ : Type} {further : β → γ} :
    (outcome.map convert).map further = outcome.map (further ∘ convert) := by
  cases outcome <;> rfl

end

namespace StringLiteral

variable {quote : Quote} {unit : CodeUnit} {rest : List CodeUnit}

def Admits (quote : Quote) (next : Option CodeUnit) : Construct → Prop
  | .raw unit =>
    unit ≠ quote.unit ∧ unit ≠ .backslash ∧ unit ≠ .lineFeed ∧ unit ≠ .carriageReturn
  | .crlf => False
  | .escape escape => escape.Fits next

theorem quote_ne_backslash (quote : Quote) : quote.unit ≠ .backslash := by
  cases quote <;> decide

theorem quote_not_digit (quote : Quote) : quote.unit.isDigit = false := by
  cases quote <;> decide

theorem quote_apart (quote : Quote) : quote.unit.isJoining = false := by
  cases quote <;> decide

theorem step_backslash (quote : Quote) (rest : List CodeUnit) :
    step quote .backslash rest = .ofEscape .allowed rest := by
  rw [step, if_neg (quote_ne_backslash quote).symm, if_pos rfl]

theorem step_sound {construct : Construct} (taken : step quote unit rest = .piece construct) :
    ∃ after, unit :: rest = construct.source ++ after ∧ Admits quote after.head? construct := by
  unfold step at taken
  split at taken
  next => contradiction
  next notQuote =>
    split at taken
    next backslash =>
      obtain ⟨escape, after, rfl, split, fits, -⟩ := Step.ofEscape_eq_piece_iff.1 taken
      exact ⟨after, by rw [backslash, split]; rfl, fits⟩
    next notBackslash =>
      split at taken
      next => contradiction
      next unbroken =>
        cases taken
        exact ⟨rest, rfl, notQuote, notBackslash, not_or.1 unbroken⟩

theorem step_complete {construct : Construct} {after : List CodeUnit}
    (split : unit :: rest = construct.source ++ after)
    (admitted : Admits quote after.head? construct) :
    step quote unit rest = .piece construct := by
  cases construct with
  | raw other =>
    cases split
    obtain ⟨notQuote, notBackslash, unbroken⟩ := admitted
    rw [step, if_neg notQuote, if_neg notBackslash, if_neg (not_or.2 unbroken)]
  | crlf => exact False.elim admitted
  | escape inner =>
    cases split
    rw [step_backslash]
    exact Step.ofEscape_eq_piece_iff.2 ⟨inner, after, rfl, rfl, admitted, fun _ => rfl⟩

theorem step_eq_close_iff {mark : Unit} {width : Nat} :
    step quote unit rest = .close mark width ↔
      width = [quote.unit].length ∧ ∃ after, unit :: rest = [quote.unit] ++ after := by
  by_cases closes : unit = quote.unit
  · rw [step, if_pos closes, closes]
    apply Iff.intro
    · intro taken
      cases taken
      exact ⟨rfl, rest, rfl⟩
    · intro spelled
      rw [spelled.1]
      rfl
  · apply Iff.intro
    · intro taken
      rw [step, if_neg closes] at taken
      split at taken
      next => exact absurd taken Step.ofEscape_ne_close
      next => split at taken <;> contradiction
    · intro spelled
      obtain ⟨-, after, split⟩ := spelled
      exact absurd (List.cons.inj split).1 closes

theorem step_eq_fault_iff {fault : Fault} {offset : Nat} :
    step quote unit rest = .fault fault offset ↔
      unit = .backslash ∧ (Step.ofEscape .allowed rest : Step Unit) = .fault fault offset ∨
        (unit = .lineFeed ∨ unit = .carriageReturn) ∧ fault = .lineTermination ∧ offset = 0 := by
  by_cases backslash : unit = .backslash
  · have unbroken : ¬(unit = .lineFeed ∨ unit = .carriageReturn) := by
      rw [backslash]
      decide
    rw [backslash] at unbroken ⊢
    simp [step_backslash, unbroken]
  · by_cases breaks : unit = .lineFeed ∨ unit = .carriageReturn
    · have notQuote : unit ≠ quote.unit := by
        cases quote <;> rcases breaks with rfl | rfl <;> decide
      rw [step, if_neg notQuote, if_neg backslash, if_pos breaks]
      simp [backslash, breaks, eq_comm]
    · apply Iff.intro
      · intro taken
        rw [step, if_neg backslash, if_neg breaks] at taken
        split at taken <;> contradiction
      · intro expected
        rcases expected with ⟨same, -⟩ | ⟨same, -⟩
        · exact absurd same backslash
        · exact absurd same breaks

def rules (quote : Quote) : Body.Rules Unit where
  step := step quote
  legacy := .allowed
  Admits := Admits quote
  delimiter _ := [quote.unit]
  Refuses unit := unit = .lineFeed ∨ unit = .carriageReturn
  piece_iff := ⟨step_sound, fun ⟨_, split, admitted⟩ => step_complete split admitted⟩
  close_iff := step_eq_close_iff
  fault_iff := step_eq_fault_iff
  admits_ended := by
    intro unit construct other admitted
    cases construct with
    | escape inner => exact Escape.Fits.ended admitted other
    | _ => exact admitted
  admits_before := by
    intro unit construct apart admitted
    cases construct with
    | escape inner => exact Escape.Fits.before admitted apart
    | _ => exact admitted
  refuses_other := by
    intro unit refused
    rcases refused with rfl | rfl <;> decide
  delimiter_apart _ := ⟨quote.unit, [], rfl, quote_apart quote⟩
  delimiter_of_end _ := rfl

theorem parse_cons {opening : CodeUnit} {quote : Quote} (opens : opening = quote.unit)
    (rest : List CodeUnit) :
    parse (opening :: rest) =
      (Body.read (rules quote).step rest).map fun body => ⟨quote, body.constructs⟩ := by
  have found := Quote.ofUnit?_eq_some_iff.2 opens
  simp only [parse, found]
  rfl

/-- A literal is read where its own text stands, if each construct may stand where it does. -/
theorem parse_eq_ok_iff {text : List CodeUnit} {literal : StringLiteral} :
    parse text = .ok literal ↔
      text = literal.source ∧
        (rules literal.quote).Spelled literal.constructs [literal.quote.unit] := by
  apply Iff.intro
  · intro read
    cases text with
    | nil => contradiction
    | cons opening rest =>
      cases found : Quote.ofUnit? opening with
      | none => simp [parse, found] at read
      | some quote =>
        have opens := Quote.ofUnit?_eq_some_iff.1 found
        rw [parse_cons opens] at read
        obtain ⟨body, bodyRead, rfl⟩ := map_eq_ok_iff.1 read
        obtain ⟨split, spelled⟩ := Body.Rules.read_eq_ok_iff.1 bodyRead
        exact ⟨by rw [source, opens, split]; rfl, spelled⟩
  · intro written
    obtain ⟨rfl, spelled⟩ := written
    have bodyRead : Body.read (rules literal.quote).step
        (Construct.sourceAll literal.constructs ++ [literal.quote.unit]) =
          .ok ⟨literal.constructs, ()⟩ :=
      Body.Rules.read_eq_ok_iff.2 ⟨rfl, spelled⟩
    rw [source, List.cons_append, parse_cons rfl]
    exact congrArg (Except.map _) bodyRead

end StringLiteral

namespace Template

variable {unit : CodeUnit} {rest : List CodeUnit}

def Admits (next : Option CodeUnit) : Construct → Prop
  | .raw unit =>
    unit ≠ .backtick ∧ unit ≠ .backslash ∧ ¬(unit = .dollar ∧ next = some .openBrace) ∧
      ¬(unit = .carriageReturn ∧ next = some .lineFeed)
  | .crlf => True
  | .escape escape => escape.isLegacy = false ∧ escape.Fits next

theorem permits_iff {escape : Escape} : Legacy.refused.Permits escape ↔ escape.isLegacy = false := by
  simp [Legacy.Permits]

theorem step_backslash (rest : List CodeUnit) :
    step .backslash rest = .ofEscape .refused rest := by
  have notDollar : ¬(CodeUnit.backslash = .dollar ∧ rest.head? = some .openBrace) :=
    fun substitution => absurd substitution.1 (by decide)
  rw [step, if_neg (by decide), if_neg notDollar, if_pos rfl]

theorem step_sound {construct : Construct} (taken : step unit rest = .piece construct) :
    ∃ after, unit :: rest = construct.source ++ after ∧ Admits after.head? construct := by
  unfold step at taken
  split at taken
  next => contradiction
  next notBacktick =>
    split at taken
    next => contradiction
    next notSubstitution =>
      split at taken
      next backslash =>
        obtain ⟨escape, after, rfl, split, fits, permitted⟩ := Step.ofEscape_eq_piece_iff.1 taken
        exact ⟨after, by rw [backslash, split]; rfl, permits_iff.1 permitted, fits⟩
      next notBackslash =>
        split at taken
        next joined =>
          cases taken
          obtain ⟨after, rfl⟩ := List.head?_eq_some_iff.1 joined.2
          exact ⟨after, by rw [joined.1]; rfl, trivial⟩
        next apart =>
          cases taken
          exact ⟨rest, rfl, notBacktick, notBackslash, notSubstitution, apart⟩

theorem step_complete {construct : Construct} {after : List CodeUnit}
    (split : unit :: rest = construct.source ++ after) (admitted : Admits after.head? construct) :
    step unit rest = .piece construct := by
  cases construct with
  | raw other =>
    have same : unit = other ∧ rest = after := List.cons.inj split
    obtain ⟨rfl, rfl⟩ := same
    obtain ⟨notBacktick, notBackslash, notSubstitution, apart⟩ := admitted
    rw [step, if_neg notBacktick, if_neg notSubstitution, if_neg notBackslash, if_neg apart]
  | crlf =>
    cases split
    rfl
  | escape inner =>
    cases split
    rw [step_backslash]
    exact Step.ofEscape_eq_piece_iff.2
      ⟨inner, after, rfl, rfl, admitted.2, permits_iff.2 admitted.1⟩

theorem step_eq_close_iff {mark : Closing} {width : Nat} :
    step unit rest = .close mark width ↔
      width = mark.units.length ∧ ∃ after, unit :: rest = mark.units ++ after := by
  apply Iff.intro
  · intro taken
    unfold step at taken
    split at taken
    next backtick =>
      cases taken
      exact ⟨rfl, rest, congrArg (· :: rest) backtick⟩
    next =>
      split at taken
      next substitution =>
        cases taken
        obtain ⟨after, rfl⟩ := List.head?_eq_some_iff.1 substitution.2
        exact ⟨rfl, after, congrArg (· :: .openBrace :: after) substitution.1⟩
      next =>
        split at taken
        next => exact absurd taken Step.ofEscape_ne_close
        next => split at taken <;> contradiction
  · intro spelled
    obtain ⟨rfl, after, split⟩ := spelled
    cases mark with
    | backtick =>
      cases split
      rfl
    | substitution =>
      cases split
      rfl

theorem step_eq_fault_iff {fault : Fault} {offset : Nat} :
    step unit rest = .fault fault offset ↔
      unit = .backslash ∧ (Step.ofEscape .refused rest : Step Closing) = .fault fault offset ∨
        False ∧ fault = .lineTermination ∧ offset = 0 := by
  by_cases backslash : unit = .backslash
  · rw [backslash, step_backslash]
    simp
  · apply Iff.intro
    · intro taken
      rw [step, if_neg backslash] at taken
      split at taken
      next => contradiction
      next =>
        split at taken
        next => contradiction
        next => split at taken <;> contradiction
    · intro expected
      rcases expected with ⟨same, -⟩ | ⟨never, -⟩
      · exact absurd same backslash
      · exact False.elim never

def rules : Body.Rules Closing where
  step := step
  legacy := .refused
  Admits := Admits
  delimiter := Closing.units
  Refuses _ := False
  piece_iff := ⟨step_sound, fun ⟨_, split, admitted⟩ => step_complete split admitted⟩
  close_iff := step_eq_close_iff
  fault_iff := step_eq_fault_iff
  admits_ended := by
    intro unit construct other admitted
    cases construct with
    | raw unit => exact ⟨admitted.1, admitted.2.1, nofun, nofun⟩
    | crlf => trivial
    | escape inner => exact ⟨admitted.1, admitted.2.ended other⟩
  refuses_other := False.elim
  admits_before := by
    intro unit construct apart admitted
    cases construct with
    | raw other =>
      simp only [CodeUnit.isJoining, decide_eq_false_iff_not, not_or] at apart
      refine ⟨admitted.1, admitted.2.1, ?_, ?_⟩
      · intro substitution
        exact apart.2.2 (Option.some.inj substitution.2)
      · intro joined
        exact apart.2.1 (Option.some.inj joined.2)
    | crlf => trivial
    | escape inner => exact ⟨admitted.1, admitted.2.before apart⟩
  delimiter_apart mark := by
    cases mark with
    | backtick => exact ⟨.backtick, [], rfl, rfl⟩
    | substitution => exact ⟨.dollar, [.openBrace], rfl, rfl⟩
  delimiter_of_end := by
    intro mark other units others same
    have last := congrArg List.getLast? same
    cases mark with
    | backtick =>
      cases other with
      | backtick => rfl
      | substitution =>
        have unequal : CodeUnit.backtick = .openBrace := by simpa [Closing.units] using last
        exact absurd unequal (by decide)
    | substitution =>
      cases other with
      | backtick =>
        have unequal : CodeUnit.openBrace = .backtick := by simpa [Closing.units] using last
        exact absurd unequal (by decide)
      | substitution => rfl

theorem parse_cons {first : CodeUnit} {opening : Opening} (opens : first = opening.unit)
    (rest : List CodeUnit) :
    parse (first :: rest) =
      (Body.read rules.step rest).map fun body => ⟨opening, body.constructs, body.closing⟩ := by
  have found := Opening.ofUnit?_eq_some_iff.2 opens
  simp only [parse, found]
  rfl

theorem parse_eq_ok_iff {text : List CodeUnit} {template : Template} :
    parse text = .ok template ↔
      text = template.source ∧ rules.Spelled template.constructs template.closing.units := by
  apply Iff.intro
  · intro read
    cases text with
    | nil => contradiction
    | cons first rest =>
      cases found : Opening.ofUnit? first with
      | none => simp [parse, found] at read
      | some opening =>
        have opens := Opening.ofUnit?_eq_some_iff.1 found
        rw [parse_cons opens] at read
        obtain ⟨body, bodyRead, rfl⟩ := map_eq_ok_iff.1 read
        obtain ⟨split, spelled⟩ := Body.Rules.read_eq_ok_iff.1 bodyRead
        exact ⟨by rw [source, opens, split]; rfl, spelled⟩
  · intro written
    obtain ⟨rfl, spelled⟩ := written
    have bodyRead : Body.read rules.step
        (Construct.sourceAll template.constructs ++ template.closing.units) =
          .ok ⟨template.constructs, template.closing⟩ :=
      Body.Rules.read_eq_ok_iff.2 ⟨rfl, spelled⟩
    rw [source, List.cons_append, parse_cons rfl]
    exact congrArg (Except.map _) bodyRead

end Template

namespace Token

def opening : Token → CodeUnit
  | string literal => literal.quote.unit
  | template inner => inner.opening.unit

def constructs : Token → List Construct
  | string literal => literal.constructs
  | template inner => inner.constructs

def closing : Token → List CodeUnit
  | string literal => [literal.quote.unit]
  | template inner => inner.closing.units

theorem units_eq (token : Token) : token.units = Construct.traceAll 1 token.constructs := by
  cases token <;> rfl

/-- What follows an opening delimiter: the rules of the body, and the token that the body makes. -/
structure Scanner where
  Mark : Type
  rules : Body.Rules Mark
  token : Body Mark → Token

def Scanner.ofQuote (quote : Quote) : Scanner where
  Mark := Unit
  rules := StringLiteral.rules quote
  token body := .string ⟨quote, body.constructs⟩

def Scanner.ofOpening (opening : Opening) : Scanner where
  Mark := Closing
  rules := Template.rules
  token body := .template ⟨opening, body.constructs, body.closing⟩

def scanner? (kind : TokenKind) (unit : CodeUnit) : Option Scanner :=
  match kind with
  | .string => (Quote.ofUnit? unit).map .ofQuote
  | .template => (Opening.ofUnit? unit).map .ofOpening

theorem parse_nil (kind : TokenKind) :
    parse kind [] = .error ⟨.malformedDelimiter kind, 0⟩ := by
  cases kind <;> rfl

theorem parse_of_unopened {kind : TokenKind} {unit : CodeUnit}
    (unopened : scanner? kind unit = none) (rest : List CodeUnit) :
    parse kind (unit :: rest) = .error ⟨.malformedDelimiter kind, 0⟩ := by
  cases kind with
  | string =>
    have none_found := Option.map_eq_none_iff.1 unopened
    simp only [parse, StringLiteral.parse, none_found]
    rfl
  | template =>
    have none_found := Option.map_eq_none_iff.1 unopened
    simp only [parse, Template.parse, none_found]
    rfl

theorem parse_of_opened {kind : TokenKind} {unit : CodeUnit} {scanner : Scanner}
    (opened : scanner? kind unit = some scanner) (rest : List CodeUnit) :
    parse kind (unit :: rest) = (Body.read scanner.rules.step rest).map scanner.token := by
  cases kind with
  | string =>
    obtain ⟨quote, found, rfl⟩ := Option.map_eq_some_iff.1 opened
    rw [parse, StringLiteral.parse_cons (Quote.ofUnit?_eq_some_iff.1 found), map_map]
    rfl
  | template =>
    obtain ⟨opening, found, rfl⟩ := Option.map_eq_some_iff.1 opened
    rw [parse, Template.parse_cons (Opening.ofUnit?_eq_some_iff.1 found), map_map]
    rfl

end Token

end Unquote
