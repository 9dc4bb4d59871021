import Unquote.Body

/-! String literals. Either quote delimits, and the other is a unit like any other. Legacy escapes
are allowed, and a line feed or carriage return has to be escaped. -/

namespace Unquote

inductive Quote where
  | double
  | single
deriving DecidableEq

namespace Quote

def unit : Quote → CodeUnit
  | double => .doubleQuote
  | single => .singleQuote

def ofUnit? (unit : CodeUnit) : Option Quote :=
  if unit = .doubleQuote then some double
  else if unit = .singleQuote then some single
  else none

theorem ofUnit?_eq_some_iff {unit : CodeUnit} {quote : Quote} :
    ofUnit? unit = some quote ↔ unit = quote.unit := by
  unfold ofUnit?
  cases quote <;> grind [Quote.unit]

end Quote

structure StringLiteral where
  quote : Quote
  constructs : List Construct
deriving DecidableEq

namespace StringLiteral

def step (quote : Quote) (unit : CodeUnit) (rest : List CodeUnit) : Step Unit :=
  if unit = quote.unit then .close () 1
  else if unit = .backslash then .ofEscape .allowed rest
  else if unit = .lineFeed ∨ unit = .carriageReturn then .fault .lineTermination 0
  else .piece (.raw unit)

def parse (text : List CodeUnit) : Except SyntaxError StringLiteral :=
  match text with
  | [] => .error ⟨.malformedDelimiter .string, 0⟩
  | opening :: rest =>
    match Quote.ofUnit? opening with
    | none => .error ⟨.malformedDelimiter .string, 0⟩
    | some quote => (Body.read (step quote) rest).map fun body => ⟨quote, body.constructs⟩

def source (literal : StringLiteral) : List CodeUnit :=
  literal.quote.unit :: Construct.sourceAll literal.constructs ++ [literal.quote.unit]

def units (literal : StringLiteral) : List TracedUnit := Construct.traceAll 1 literal.constructs

def features (literal : StringLiteral) : Features := Construct.featuresAll literal.constructs

def cooked (literal : StringLiteral) : String := Utf16.decodeLossy (literal.units.map (·.code))

end StringLiteral

end Unquote
