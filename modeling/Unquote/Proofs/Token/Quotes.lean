import Unquote.Proofs.Token.Provenance

/-! The two quotes are interchangeable. A text with each quote in the other's place is read step by
step as the text itself: the same constructs stand at the same places, but for the quotes in them,
and the same fault ends the reading. -/

namespace Unquote

def Quote.other : Quote → Quote
  | double => single
  | single => double

namespace CodeUnit

def exchange (unit : CodeUnit) : CodeUnit :=
  if unit = .doubleQuote then .singleQuote
  else if unit = .singleQuote then .doubleQuote
  else unit

theorem exchange_quote (quote : Quote) : exchange quote.unit = quote.other.unit := by
  cases quote <;> rfl

theorem exchange_cases (unit : CodeUnit) :
    unit.exchange = unit ∧ Quote.ofUnit? unit = none ∨ ∃ quote : Quote, unit = quote.unit := by
  by_cases double : unit = .doubleQuote
  · exact Or.inr ⟨.double, double⟩
  · by_cases single : unit = .singleQuote
    · exact Or.inr ⟨.single, single⟩
    · refine Or.inl ⟨?_, ?_⟩
      · rw [exchange, if_neg double, if_neg single]
      · rw [Quote.ofUnit?, if_neg double, if_neg single]

theorem ofUnit?_exchange (unit : CodeUnit) :
    Quote.ofUnit? unit.exchange = (Quote.ofUnit? unit).map (·.other) := by
  rcases unit.exchange_cases with ⟨same, other⟩ | ⟨quote, rfl⟩
  · rw [same, other]
    rfl
  · cases quote <;> rfl

theorem exists_quote {unit : CodeUnit} (moved : unit.exchange ≠ unit) :
    ∃ quote : Quote, unit = quote.unit :=
  unit.exchange_cases.resolve_left fun kept => moved kept.1

@[simp] theorem exchange_exchange (unit : CodeUnit) : unit.exchange.exchange = unit := by
  rcases unit.exchange_cases with ⟨same, -⟩ | ⟨quote, rfl⟩
  · rw [same, same]
  · cases quote <;> rfl

theorem exchange_inj {unit other : CodeUnit} : unit.exchange = other.exchange ↔ unit = other := by
  refine ⟨fun same => ?_, congrArg exchange⟩
  rw [← unit.exchange_exchange, same, other.exchange_exchange]

theorem congr_exchange {α : Type} {view : CodeUnit → α}
    (blind : view .doubleQuote = view .singleQuote) (unit : CodeUnit) :
    view unit.exchange = view unit := by
  rcases unit.exchange_cases with ⟨same, -⟩ | ⟨quote, rfl⟩
  · rw [same]
  · cases quote
    · exact blind.symm
    · exact blind

@[simp] theorem isDigit_exchange (unit : CodeUnit) : unit.exchange.isDigit = unit.isDigit :=
  congr_exchange rfl unit

@[simp] theorem isOctalDigit_exchange (unit : CodeUnit) :
    unit.exchange.isOctalDigit = unit.isOctalDigit :=
  congr_exchange rfl unit

@[simp] theorem isSeparator_exchange (unit : CodeUnit) :
    unit.exchange.isSeparator = unit.isSeparator :=
  congr_exchange rfl unit

end CodeUnit

@[simp] theorem HexDigit.exchange_unit (digit : HexDigit) : digit.unit.exchange = digit.unit := by
  have isHex := digit.isHex
  rcases digit.unit.exchange_cases with ⟨same, -⟩ | ⟨quote, found⟩
  · exact same
  · rw [found] at isHex
    cases quote <;> contradiction

@[simp] theorem OctalDigit.exchange_unit (digit : OctalDigit) :
    digit.unit.exchange = digit.unit := by
  decide +revert

theorem map_exchange_of_kept {α : Type} {unit : α → CodeUnit}
    (kept : ∀ digit, (unit digit).exchange = unit digit) (digits : List α) :
    (digits.map unit).map (·.exchange) = digits.map unit := by
  rw [List.map_map]
  exact List.map_congr_left fun digit _ => kept digit

theorem exchange_exchange_units (units : List CodeUnit) :
    (units.map (·.exchange)).map (·.exchange) = units := by
  rw [List.map_map]
  exact (List.map_congr_left fun unit _ => unit.exchange_exchange).trans (List.map_id units)

namespace Escape

/-- The same escape where the quotes are exchanged. Only a unit that stands for itself changes. -/
def exchange : Escape → Escape
  | identity unit plain => identity unit.exchange ((unit.congr_exchange rfl).trans plain)
  | escape => escape

variable {escape : Escape} {units : List CodeUnit}

theorem body_exchange (escape : Escape) :
    escape.exchange.body = escape.body.map (·.exchange) := by
  cases escape with
  | control named => cases named <;> rfl
  | hex high low =>
    have kept := map_exchange_of_kept HexDigit.exchange_unit [high, low]
    exact congrArg (0x78 :: ·) kept.symm
  | unicode first second third fourth =>
    have kept := map_exchange_of_kept HexDigit.exchange_unit [first, second, third, fourth]
    exact congrArg (0x75 :: ·) kept.symm
  | codePoint digits =>
    have kept := map_exchange_of_kept HexDigit.exchange_unit digits
    simp only [exchange, body, List.map_append, List.map_cons, kept]
    rfl
  | lineContinuation lineBreak => cases lineBreak <;> rfl
  | octal first more => exact (map_exchange_of_kept OctalDigit.exchange_unit (first :: more)).symm
  | _ => rfl

theorem features_exchange (escape : Escape) : escape.exchange.features = escape.features := by
  cases escape <;> rfl

theorem Fits.exchange {next : Option CodeUnit} (fits : escape.Fits next) :
    escape.exchange.Fits (next.map (·.exchange)) := by
  have digit : (next.map (·.exchange)).any (·.isDigit) = next.any (·.isDigit) := by
    simp [Option.any_map]
  have octalDigit : (next.map (·.exchange)).any (·.isOctalDigit) = next.any (·.isOctalDigit) := by
    simp [Option.any_map]
  cases escape with
  | lineContinuation lineBreak =>
    cases lineBreak with
    | carriageReturn =>
      intro feed
      obtain ⟨unit, present, same⟩ := Option.map_eq_some_iff.1 feed
      exact fits (present.trans (congrArg some (CodeUnit.exchange_inj.1 same)))
    | _ => trivial
  | nul => exact digit.trans fits
  | octal first more =>
    exact ⟨fits.1.imp_right octalDigit.trans, fun zero alone => digit.trans (fits.2 zero alone)⟩
  | _ => trivial

theorem read?_exchange_of_some (found : read? units = some escape) :
    read? (units.map (·.exchange)) = some escape.exchange := by
  obtain ⟨rest, rfl, fits⟩ := read?_eq_some_iff.1 found
  refine read?_eq_some_iff.2 ⟨rest.map (·.exchange), ?_, ?_⟩
  · rw [List.map_append, body_exchange]
  · rw [List.head?_map]
    exact fits.exchange

/-- No more can be read of the exchanged units, since those of an exchange are the units again. -/
theorem read?_exchange_of_none (unread : read? units = none) :
    read? (units.map (·.exchange)) = none := by
  cases found : read? (units.map (·.exchange)) with
  | none => rfl
  | some escape =>
    have again := read?_exchange_of_some found
    rw [exchange_exchange_units, unread] at again
    contradiction

end Escape

namespace Construct

def exchange : Construct → Construct
  | raw unit => raw unit.exchange
  | crlf => crlf
  | escape inner => escape inner.exchange

theorem source_exchange (construct : Construct) :
    construct.exchange.source = construct.source.map (·.exchange) := by
  cases construct with
  | escape inner => exact congrArg (.backslash :: ·) inner.body_exchange
  | _ => rfl

theorem width_exchange (construct : Construct) : construct.exchange.width = construct.width := by
  rw [width, source_exchange, List.length_map, width]

theorem features_exchange (construct : Construct) :
    construct.exchange.features = construct.features := by
  cases construct with
  | raw unit => simp only [exchange, features, CodeUnit.isSeparator_exchange]
  | crlf => rfl
  | escape inner => exact inner.features_exchange

theorem featuresAll_exchange (constructs : List Construct) :
    featuresAll (constructs.map (·.exchange)) = featuresAll constructs := by
  simp only [featuresAll, List.foldl_map, features_exchange]

end Construct

def isQuote (source : List CodeUnit) : Bool :=
  source = [.doubleQuote] ∨ source = [.singleQuote] ∨ source = [.backslash, .doubleQuote] ∨
    source = [.backslash, .singleQuote]

theorem isQuote_of_kept {source : List CodeUnit} (kept : source.map (·.exchange) = source) :
    isQuote source = false := by
  rw [Bool.eq_false_iff, isQuote, Ne, decide_eq_true_eq]
  rintro (rfl | rfl | rfl | rfl) <;> contradiction

/-- The unit that the exchanged source gives. Its code is another only where the source was a quote,
bare or after a backslash. -/
def TracedUnit.exchange (unit : TracedUnit) : TracedUnit where
  code := if isQuote unit.source then unit.code.exchange else unit.code
  start := unit.start
  source := unit.source.map (·.exchange)
  half := unit.half

theorem TracedUnit.exchange_of_kept {unit : TracedUnit}
    (kept : unit.source.map (·.exchange) = unit.source) : unit.exchange = unit := by
  rw [exchange, kept, isQuote_of_kept kept]
  rfl

namespace Construct

variable {construct : Construct}

theorem trace_of_kept (kept : construct.exchange = construct) (start : Nat) :
    construct.exchange.trace start = (construct.trace start).map (·.exchange) := by
  have source := construct.source_exchange
  rw [kept] at source ⊢
  refine ((List.map_congr_left fun unit member => ?_).trans (List.map_id _)).symm
  rw [← ((construct.gives start).placed member).2] at source
  exact TracedUnit.exchange_of_kept source.symm

theorem trace_of_unit {unit : CodeUnit} (value : construct.value = .unit unit)
    (exchanged : construct.exchange.value = .unit unit.exchange)
    (quote : unit.exchange ≠ unit → isQuote construct.source) (start : Nat) :
    construct.exchange.trace start = (construct.trace start).map (·.exchange) := by
  have code : (if isQuote construct.source then unit.exchange else unit) = unit.exchange := by
    by_cases same : unit.exchange = unit
    · rw [same, ite_self]
    · rw [if_pos (quote same)]
  rw [trace, exchanged, source_exchange, trace, value]
  simp only [Decoded.trace, List.map_cons, List.map_nil, TracedUnit.exchange, code]

theorem trace_exchange (construct : Construct) (start : Nat) :
    construct.exchange.trace start = (construct.trace start).map (·.exchange) := by
  cases construct with
  | raw unit =>
    refine trace_of_unit rfl rfl (fun moved => ?_) start
    obtain ⟨quote, rfl⟩ := CodeUnit.exists_quote moved
    cases quote <;> rfl
  | crlf => exact trace_of_kept rfl start
  | escape inner =>
    cases inner with
    | identity unit plain =>
      refine trace_of_unit rfl rfl (fun moved => ?_) start
      obtain ⟨quote, rfl⟩ := CodeUnit.exists_quote moved
      cases quote <;> rfl
    | _ =>
      -- No other escape has a quote in it, and so it is its own exchange.
      exact trace_of_kept rfl start

theorem traceAll_exchange (start : Nat) (constructs : List Construct) :
    traceAll start (constructs.map (·.exchange)) = (traceAll start constructs).map (·.exchange) := by
  induction constructs generalizing start with
  | nil => rfl
  | cons construct rest ih =>
    rw [List.map_cons, traceAll_cons, traceAll_cons, List.map_append, trace_exchange,
      width_exchange, ih]

end Construct

def Step.change {κ : Type} (alter : Construct → Construct) : Step κ → Step κ
  | piece construct => piece (alter construct)
  | close mark width => close mark width
  | fault cause offset => fault cause offset

theorem Step.ofEscape_exchange {κ : Type} (rest : List CodeUnit) :
    (ofEscape .allowed (rest.map (·.exchange)) : Step κ) =
      (ofEscape .allowed rest : Step κ).change (·.exchange) := by
  cases found : Escape.read? rest with
  | some escape =>
    have exchanged := Escape.read?_exchange_of_some found
    simp only [ofEscape, Escape.attempt_of_permitted found fun _ => rfl,
      Escape.attempt_of_permitted exchanged fun _ => rfl]
    rfl
  | none =>
    cases rest with
    | nil => rfl
    | cons unit more =>
      have unread := Escape.read?_exchange_of_none found
      simp only [ofEscape, Escape.attempt_of_unread found (List.cons_ne_nil _ _),
        Escape.attempt_of_unread unread (List.cons_ne_nil _ _)]
      rfl

namespace Body

variable {κ : Type} {alter : Construct → Construct} {vary : CodeUnit → CodeUnit}
  {step other : CodeUnit → List CodeUnit → Step κ}

def change (alter : Construct → Construct) (body : Body κ) : Body κ :=
  ⟨body.constructs.map alter, body.closing⟩

/-- Where each step of one reading is that of the other with the construct altered, and none is
wider or narrower for it, the readings come to the same. -/
theorem readFrom_change (wide : ∀ construct, (alter construct).width = construct.width)
    (steps : ∀ unit rest, other (vary unit) (rest.map vary) = (step unit rest).change alter)
    (skip pos : Nat) (done : List Construct) (units : List CodeUnit) :
    readFrom other skip pos (done.map alter) (units.map vary) =
      (readFrom step skip pos done units).map (·.change alter) := by
  -- Both readings pass over the same units, as no construct changes its width.
  induction units generalizing skip pos done with
  | nil => cases skip <;> rfl
  | cons unit rest ih =>
    cases skip with
    | succ skip => exact ih skip pos done
    | zero =>
      have taken := steps unit rest
      cases found : step unit rest with
      | piece construct =>
        rw [found] at taken
        have further := ih (construct.width - 1) (pos + construct.width) (construct :: done)
        simp only [List.map_cons, readFrom, found, taken, Step.change, wide] at further ⊢
        exact further
      | close mark width =>
        rw [found] at taken
        simp only [List.map_cons, readFrom, found, taken, Step.change, List.length_map]
        split
        · simp [Except.map, change]
        · rfl
      | fault cause offset =>
        rw [found] at taken
        simp only [List.map_cons, readFrom, found, taken, Step.change]
        rfl

end Body

namespace StringLiteral

def exchange (literal : StringLiteral) : StringLiteral :=
  ⟨literal.quote.other, literal.constructs.map (·.exchange)⟩

theorem step_exchange (quote : Quote) (unit : CodeUnit) (rest : List CodeUnit) :
    step quote.other unit.exchange (rest.map (·.exchange)) =
      (step quote unit rest).change (·.exchange) := by
  have closes : unit.exchange = quote.other.unit ↔ unit = quote.unit := by
    rw [← CodeUnit.exchange_quote, CodeUnit.exchange_inj]
  have escapes : unit.exchange = .backslash ↔ unit = .backslash :=
    @CodeUnit.exchange_inj unit .backslash
  have feeds : unit.exchange = .lineFeed ↔ unit = .lineFeed :=
    @CodeUnit.exchange_inj unit .lineFeed
  have returns : unit.exchange = .carriageReturn ↔ unit = .carriageReturn :=
    @CodeUnit.exchange_inj unit .carriageReturn
  simp only [step, closes, escapes, feeds, returns]
  split
  · rfl
  · split
    · exact Step.ofEscape_exchange rest
    · split <;> rfl

theorem parse_exchange (text : List CodeUnit) :
    parse (text.map (·.exchange)) = (parse text).map (·.exchange) := by
  cases text with
  | nil => rfl
  | cons opening rest =>
    have delimiter := opening.ofUnit?_exchange
    cases found : Quote.ofUnit? opening with
    | none =>
      rw [found] at delimiter
      simp only [List.map_cons, parse, found, delimiter]
      rfl
    | some quote =>
      rw [found] at delimiter
      have opens := Quote.ofUnit?_eq_some_iff.1 found
      have exchanged := Quote.ofUnit?_eq_some_iff.1 delimiter
      have body : Body.read (rules quote.other).step (rest.map (·.exchange)) =
          (Body.read (rules quote).step rest).map (·.change (·.exchange)) :=
        Body.readFrom_change Construct.width_exchange (step_exchange quote) 0 1 [] rest
      rw [List.map_cons, parse_cons exchanged, parse_cons opens, body, map_map, map_map]
      rfl

/-- What is read of a text once its quotes are exchanged: the same error, or the same literal in
the other quotes. -/
structure Exchanges (text : List CodeUnit) : Prop where
  error_iff : ∀ error,
    parse (text.map (·.exchange)) = .error error ↔ parse text = .error error
  literal : ∀ literal, parse text = .ok literal → ∃ other,
    parse (text.map (·.exchange)) = .ok other ∧ other.quote = literal.quote.other ∧
      other.features = literal.features ∧ other.units = literal.units.map (·.exchange)

theorem quotes_interchangeable (text : List CodeUnit) : Exchanges text where
  error_iff error := by
    rw [parse_exchange]
    exact map_eq_error_iff
  literal literal read := by
    refine ⟨literal.exchange, ?_, rfl, ?_, ?_⟩
    · rw [parse_exchange, read]
      rfl
    · exact Construct.featuresAll_exchange literal.constructs
    · exact Construct.traceAll_exchange 1 literal.constructs

def mixedQuotes : List CodeUnit :=
  [.singleQuote, .doubleQuote, .backslash, .singleQuote, .backslash, 0x78, 0x32, 0x32, .singleQuote]

theorem quotes_interchangeable_mixedQuotes :
    ∃ literal, parse mixedQuotes = .ok literal ∧ ∃ other,
      parse [.doubleQuote, .singleQuote, .backslash, .doubleQuote, .backslash, 0x78, 0x32, 0x32,
          .doubleQuote] = .ok other ∧
        other.quote = .double ∧ other.units.map (·.code) = [0x27, 0x22, 0x22] ∧
        other.units = literal.units.map (·.exchange) := by
  obtain ⟨other, read, quote, -, units⟩ := (quotes_interchangeable mixedQuotes).literal _ rfl
  refine ⟨_, rfl, other, read, quote, ?_, units⟩
  rw [units]
  decide

end StringLiteral

end Unquote
