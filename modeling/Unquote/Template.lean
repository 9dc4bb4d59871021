import Unquote.Body

/-! Template tokens: the stretches of a template literal between its substitutions. Line breaks
stand for themselves, except that a carriage return and line feed count as one line feed. Legacy
escapes are refused, and features are not reported, since a template has none that a context
forbids. -/

namespace Unquote

/-- What stands before a template token: the start of the template or the end of a substitution. -/
inductive Opening where
  | backtick
  | closeBrace
deriving DecidableEq

namespace Opening

def unit : Opening → CodeUnit
  | backtick => .backtick
  | closeBrace => .closeBrace

def ofUnit? (unit : CodeUnit) : Option Opening :=
  if unit = .backtick then some backtick
  else if unit = .closeBrace then some closeBrace
  else none

theorem ofUnit?_eq_some_iff {unit : CodeUnit} {opening : Opening} :
    ofUnit? unit = some opening ↔ unit = opening.unit := by
  unfold ofUnit?
  cases opening <;> grind [Opening.unit]

end Opening

inductive Closing where
  | backtick
  | substitution
deriving DecidableEq

def Closing.units : Closing → List CodeUnit
  | backtick => [.backtick]
  | substitution => [.dollar, .openBrace]

inductive TemplateKind where
  | noSubstitution
  | head
  | middle
  | tail
deriving DecidableEq

namespace TemplateKind

def of : Opening → Closing → TemplateKind
  | .backtick, .backtick => noSubstitution
  | .backtick, .substitution => head
  | .closeBrace, .substitution => middle
  | .closeBrace, .backtick => tail

def opensSubstitution : TemplateKind → Bool
  | head | middle => true
  | noSubstitution | tail => false

theorem opensSubstitution_of (opening : Opening) (closing : Closing) :
    (of opening closing).opensSubstitution = decide (closing = .substitution) := by
  cases opening <;> cases closing <;> rfl

def name : TemplateKind → String
  | noSubstitution => "noSubstitutionTemplate"
  | head => "templateHead"
  | middle => "templateMiddle"
  | tail => "templateTail"

end TemplateKind

structure Template where
  opening : Opening
  constructs : List Construct
  closing : Closing
deriving DecidableEq

namespace Template

def step (unit : CodeUnit) (rest : List CodeUnit) : Step Closing :=
  if unit = .backtick then .close .backtick 1
  else if unit = .dollar ∧ rest.head? = some .openBrace then .close .substitution 2
  else if unit = .backslash then .ofEscape .refused rest
  else if unit = .carriageReturn ∧ rest.head? = some .lineFeed then .piece .crlf
  else .piece (.raw unit)

def parse (text : List CodeUnit) : Except SyntaxError Template :=
  match text with
  | [] => .error ⟨.malformedDelimiter .template, 0⟩
  | first :: rest =>
    match Opening.ofUnit? first with
    | none => .error ⟨.malformedDelimiter .template, 0⟩
    | some opening =>
      (Body.read step rest).map fun body => ⟨opening, body.constructs, body.closing⟩

def source (template : Template) : List CodeUnit :=
  template.opening.unit :: Construct.sourceAll template.constructs ++ template.closing.units

def kind (template : Template) : TemplateKind := .of template.opening template.closing

def units (template : Template) : List TracedUnit := Construct.traceAll 1 template.constructs

def cooked (template : Template) : String := Utf16.decodeLossy (template.units.map (·.code))

end Template

end Unquote
