import Unquote.Proofs.Body.Sequence
import Unquote.Proofs.Token.Scanner

/-! Texts between given delimiters. Such a text is a token just where what stands between the
delimiters is constructs, each of which may stand where it does. -/

namespace Unquote

def StringLiteral.enclose (quote : Quote) (body : List CodeUnit) : List CodeUnit :=
  quote.unit :: body ++ [quote.unit]

def Template.enclose (opening : Opening) (body : List CodeUnit) (closing : Closing) :
    List CodeUnit :=
  opening.unit :: body ++ closing.units

theorem StringLiteral.parse_enclose_iff {quote : Quote} {body : List CodeUnit}
    {literal : StringLiteral} :
    parse (enclose quote body) = .ok literal ↔
      literal.quote = quote ∧ body = Construct.sourceAll literal.constructs ∧
        (rules quote).Spelled literal.constructs [quote.unit] := by
  rw [enclose, List.cons_append, parse_cons rfl, map_eq_ok_iff]
  apply Iff.intro
  · intro found
    obtain ⟨⟨constructs, mark⟩, read, rfl⟩ := found
    obtain ⟨split, spelled⟩ := Body.Rules.read_eq_ok_iff.1 read
    exact ⟨rfl, List.append_cancel_right split, spelled⟩
  · intro written
    obtain ⟨rfl, rfl, spelled⟩ := written
    exact ⟨⟨literal.constructs, ()⟩, Body.Rules.read_eq_ok_iff.2 ⟨rfl, spelled⟩, rfl⟩

theorem Template.parse_enclose_iff {opening : Opening} {body : List CodeUnit} {closing : Closing}
    {template : Template} :
    parse (enclose opening body closing) = .ok template ↔
      template.opening = opening ∧ template.closing = closing ∧
        body = Construct.sourceAll template.constructs ∧
        rules.Spelled template.constructs closing.units := by
  rw [enclose, List.cons_append, parse_cons rfl, map_eq_ok_iff]
  apply Iff.intro
  · intro found
    obtain ⟨⟨constructs, mark⟩, read, rfl⟩ := found
    obtain ⟨split, spelled⟩ := Body.Rules.read_eq_ok_iff.1 read
    cases rules.delimiter_of_end split
    exact ⟨rfl, rfl, List.append_cancel_right split, spelled⟩
  · intro written
    obtain ⟨rfl, rfl, rfl, spelled⟩ := written
    exact ⟨⟨template.constructs, template.closing⟩, Body.Rules.read_eq_ok_iff.2 ⟨rfl, spelled⟩, rfl⟩

theorem Template.parse_enclose_eq_error_iff {opening : Opening} {body : List CodeUnit}
    {closing : Closing} {error : SyntaxError} :
    parse (enclose opening body closing) = .error error ↔
      Body.read rules.step (body ++ closing.units) = .error error := by
  rw [enclose, List.cons_append, parse_cons rfl, map_eq_error_iff]

end Unquote
