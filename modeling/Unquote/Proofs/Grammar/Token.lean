import Unquote.Proofs.Grammar.Item

/-! Tokens as the grammar has them. The scanners accept exactly the texts that the grammar derives;
the items of a text are determined by it, and they give the value of the token. -/

namespace Unquote.Grammar

def LiteralWritten (quote : Quote) (items : List Item) (text : List CodeUnit) : Prop :=
  text = quote.unit :: items.flatMap (·.source) ++ [quote.unit] ∧
    Sequence (StringItem quote) items [quote.unit]

theorem literalWritten_iff_read {text : List CodeUnit} {quote : Quote} {items : List Item} :
    LiteralWritten quote items text ↔
      ∃ literal, StringLiteral.parse text = .ok literal ∧ literal.quote = quote ∧
        literal.constructs.map constructItem = items := by
  apply Iff.intro
  · intro written
    obtain ⟨split, sequence⟩ := written
    obtain ⟨constructs, rfl, spelled⟩ := stringItems_iff.1 sequence
    rw [flatMap_source] at split
    have read : StringLiteral.parse text = .ok ⟨quote, constructs⟩ :=
      StringLiteral.parse_eq_ok_iff.2 ⟨split, spelled⟩
    exact ⟨⟨quote, constructs⟩, read, rfl, rfl⟩
  · intro found
    obtain ⟨literal, read, rfl, rfl⟩ := found
    obtain ⟨split, spelled⟩ := StringLiteral.parse_eq_ok_iff.1 read
    refine ⟨?_, stringItems_iff.2 ⟨literal.constructs, rfl, spelled⟩⟩
    rw [flatMap_source]
    exact split

theorem LiteralWritten.codes {text : List CodeUnit} {quote : Quote} {items : List Item}
    {literal : StringLiteral} (written : LiteralWritten quote items text)
    (read : StringLiteral.parse text = .ok literal) :
    literal.units.map (·.code) = items.flatMap (·.value) := by
  obtain ⟨found, read', -, rfl⟩ := literalWritten_iff_read.1 written
  obtain rfl : literal = found := Except.ok.inj (read.symm.trans read')
  exact traceAll_code 1 literal.constructs

inductive Delimited : TemplateKind → CodeUnit → List CodeUnit → Prop
  | noSubstitution : Delimited .noSubstitution .backtick [.backtick]
  | head : Delimited .head .backtick [.dollar, .openBrace]
  | middle : Delimited .middle .closeBrace [.dollar, .openBrace]
  | tail : Delimited .tail .closeBrace [.backtick]

theorem delimited_of (opening : Opening) (closing : Closing) :
    Delimited (.of opening closing) opening.unit closing.units := by
  cases opening with
  | backtick =>
    cases closing with
    | backtick => exact .noSubstitution
    | substitution => exact .head
  | closeBrace =>
    cases closing with
    | backtick => exact .tail
    | substitution => exact .middle

theorem Delimited.exists_delimiters {kind : TemplateKind} {first : CodeUnit}
    {last : List CodeUnit} (delimited : Delimited kind first last) :
    ∃ opening closing, kind = .of opening closing ∧ first = opening.unit ∧
      last = closing.units := by
  cases delimited with
  | noSubstitution => exact ⟨.backtick, .backtick, rfl, rfl, rfl⟩
  | head => exact ⟨.backtick, .substitution, rfl, rfl, rfl⟩
  | middle => exact ⟨.closeBrace, .substitution, rfl, rfl, rfl⟩
  | tail => exact ⟨.closeBrace, .backtick, rfl, rfl, rfl⟩

def TemplateWritten (kind : TemplateKind) (items : List Item) (text : List CodeUnit) : Prop :=
  ∃ first last, Delimited kind first last ∧
    text = first :: items.flatMap (·.source) ++ last ∧ Sequence TemplateItem items last

theorem templateWritten_iff_read {text : List CodeUnit} {kind : TemplateKind}
    {items : List Item} :
    TemplateWritten kind items text ↔
      ∃ template, Template.parse text = .ok template ∧ template.kind = kind ∧
        template.constructs.map constructItem = items := by
  apply Iff.intro
  · intro written
    obtain ⟨first, last, delimited, split, sequence⟩ := written
    obtain ⟨opening, closing, rfl, rfl, rfl⟩ := delimited.exists_delimiters
    obtain ⟨constructs, rfl, spelled⟩ := templateItems_iff.1 sequence
    rw [flatMap_source] at split
    have read : Template.parse text = .ok ⟨opening, constructs, closing⟩ :=
      Template.parse_eq_ok_iff.2 ⟨split, spelled⟩
    exact ⟨⟨opening, constructs, closing⟩, read, rfl, rfl⟩
  · intro found
    obtain ⟨template, read, rfl, rfl⟩ := found
    obtain ⟨split, spelled⟩ := Template.parse_eq_ok_iff.1 read
    refine ⟨_, _, delimited_of template.opening template.closing, ?_,
      templateItems_iff.2 ⟨template.constructs, rfl, spelled⟩⟩
    rw [flatMap_source]
    exact split

theorem TemplateWritten.codes {text : List CodeUnit} {kind : TemplateKind} {items : List Item}
    {template : Template} (written : TemplateWritten kind items text)
    (read : Template.parse text = .ok template) :
    template.units.map (·.code) = items.flatMap (·.value) := by
  obtain ⟨found, read', -, rfl⟩ := templateWritten_iff_read.1 written
  obtain rfl : template = found := Except.ok.inj (read.symm.trans read')
  exact traceAll_code 1 template.constructs

end Unquote.Grammar
