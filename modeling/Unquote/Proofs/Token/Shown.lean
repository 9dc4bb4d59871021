import Unquote.Token.Basic

/-! What a printed token shows besides its units, and lists of units for which a form prints the
same. -/

namespace Unquote

def Token.note : Token → Features ⊕ TemplateKind
  | .string literal => .inl literal.features
  | .template inner => .inr inner.kind

theorem TemplateKind.name_inj {first second : TemplateKind} (same : first.name = second.name) :
    first = second := by
  revert same
  cases first <;> cases second <;> decide

theorem TracedUnit.map_eq_of_map_eq {α β : Type} {shown : TracedUnit → α} {told : TracedUnit → β}
    (tells : ∀ {unit other}, shown unit = shown other → told unit = told other)
    {units others : List TracedUnit} (same : units.map shown = others.map shown) :
    units.map told = others.map told := by
  induction units generalizing others with
  | nil =>
    cases others with
    | nil => rfl
    | cons other others => contradiction
  | cons unit units ih =>
    cases others with
    | nil => contradiction
    | cons other others =>
      obtain ⟨first, rest⟩ := List.cons.inj same
      rw [List.map_cons, List.map_cons, tells first, ih rest]

end Unquote
