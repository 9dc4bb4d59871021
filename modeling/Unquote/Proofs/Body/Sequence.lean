import Unquote.Proofs.Body.Rules

/-! Constructs one after another. What a sequence of constructs gives is put together from what its
parts give: the text, the units, the features and whether each construct may stand where it does. -/

namespace Unquote

namespace Features

theorem empty_eq : empty = ∅ := rfl

theorem empty_union (features : Features) : (∅ : Features) ∪ features = features := rfl

theorem union_empty (features : Features) : features ∪ (∅ : Features) = features := by
  rcases features with ⟨_ | _, _ | _, _ | _⟩ <;> rfl

theorem union_assoc (first second third : Features) :
    first ∪ second ∪ third = first ∪ (second ∪ third) := by
  rcases first with ⟨_ | _, _ | _, _ | _⟩ <;> rfl

def IsFlag (flag : Features → Bool) : Prop :=
  flag ∅ = false ∧ ∀ left right, flag (left ∪ right) = (flag left || flag right)

theorem isFlag_codePointEscape : IsFlag (·.codePointEscape) := ⟨rfl, fun _ _ => rfl⟩

theorem isFlag_lineTerminator : IsFlag (·.lineTerminator) := ⟨rfl, fun _ _ => rfl⟩

theorem isFlag_octalEscape : IsFlag (·.octalEscape) := ⟨rfl, fun _ _ => rfl⟩

end Features

def TracedUnit.shift (distance : Nat) (unit : TracedUnit) : TracedUnit :=
  { unit with start := unit.start + distance }

namespace Construct

variable {constructs : List Construct} {construct : Construct}

theorem trace_shift (start distance : Nat) (construct : Construct) :
    construct.trace (start + distance) = (construct.trace start).map (·.shift distance) := by
  unfold trace
  cases construct.value <;> rfl

theorem traceAll_shift (start distance : Nat) (constructs : List Construct) :
    traceAll (start + distance) constructs =
      (traceAll start constructs).map (·.shift distance) := by
  induction constructs generalizing start with
  | nil => rfl
  | cons construct rest ih =>
    rw [traceAll_cons, traceAll_cons, List.map_append, trace_shift, Nat.add_right_comm, ih]

theorem traceAll_append (start : Nat) (first second : List Construct) :
    traceAll start (first ++ second) =
      traceAll start first ++ traceAll (start + (sourceAll first).length) second := by
  induction first generalizing start with
  | nil => rfl
  | cons construct rest ih =>
    rw [List.cons_append, traceAll_cons, traceAll_cons, ih, List.append_assoc, sourceAll_cons,
      List.length_append, width, Nat.add_assoc]

theorem mem_traceAll {start : Nat} {unit : TracedUnit} :
    unit ∈ traceAll start constructs ↔
      ∃ before construct after, constructs = before ++ construct :: after ∧
        unit ∈ construct.trace (start + (sourceAll before).length) := by
  apply Iff.intro
  · intro member
    induction constructs generalizing start with
    | nil => contradiction
    | cons construct rest ih =>
      rw [traceAll_cons, List.mem_append] at member
      rcases member with here | later
      · exact ⟨[], construct, rest, rfl, here⟩
      · obtain ⟨before, other, after, rfl, given⟩ := ih later
        refine ⟨construct :: before, other, after, rfl, ?_⟩
        rw [sourceAll_cons, List.length_append, ← Nat.add_assoc]
        exact given
  · intro found
    obtain ⟨before, construct, after, rfl, given⟩ := found
    rw [traceAll_append, traceAll_cons]
    exact List.mem_append_right _ (List.mem_append_left _ given)

theorem featuresAll_onto (noted : Features) (constructs : List Construct) :
    constructs.foldl (fun noted construct => noted ∪ construct.features) noted =
      noted ∪ featuresAll constructs := by
  induction constructs generalizing noted with
  | nil => exact (Features.union_empty noted).symm
  | cons construct rest ih =>
    rw [featuresAll, List.foldl_cons, List.foldl_cons, ih, ih (∅ ∪ _), Features.empty_union,
      Features.union_assoc]

theorem featuresAll_cons (construct : Construct) (rest : List Construct) :
    featuresAll (construct :: rest) = construct.features ∪ featuresAll rest :=
  featuresAll_onto _ rest

theorem featuresAll_append (first second : List Construct) :
    featuresAll (first ++ second) = featuresAll first ∪ featuresAll second := by
  rw [featuresAll, List.foldl_append, featuresAll_onto]
  rfl

theorem octalEscape_iff :
    construct.features.octalEscape ↔
      ∃ escape : Escape, construct = .escape escape ∧ escape.isLegacy := by
  cases construct with
  | raw unit =>
    by_cases separator : unit.isSeparator <;>
      simp [features, separator, Features.ofLineTerminator, Features.empty]
  | crlf => simp [features, Features.empty]
  | escape inner => simp [features, inner.octalEscape_eq_isLegacy]

theorem featuresAll_iff {flag : Features → Bool} (counts : Features.IsFlag flag) :
    flag (featuresAll constructs) ↔ ∃ construct ∈ constructs, flag construct.features := by
  induction constructs with
  | nil =>
    have unused : flag (featuresAll []) = false := counts.1
    simp [unused]
  | cons construct rest ih =>
    rw [featuresAll_cons, counts.2, Bool.or_eq_true, ih]
    simp only [List.mem_cons, exists_eq_or_imp]

theorem featuresAll_octalEscape_iff :
    (featuresAll constructs).octalEscape ↔
      ∃ escape : Escape, .escape escape ∈ constructs ∧ escape.isLegacy := by
  rw [featuresAll_iff Features.isFlag_octalEscape]
  simp only [octalEscape_iff]
  grind

theorem getElem?_after (opening : CodeUnit) (before : List Construct) (construct : Construct)
    (after : List Construct) (closing : List CodeUnit) :
    (opening :: sourceAll (before ++ construct :: after) ++ closing)[
      1 + (sourceAll before).length + construct.width]? = (sourceAll after ++ closing).head? := by
  have split : opening :: sourceAll (before ++ construct :: after) ++ closing =
      (opening :: sourceAll before ++ construct.source) ++ (sourceAll after ++ closing) := by
    simp
  have length : 1 + (sourceAll before).length + construct.width =
      (opening :: sourceAll before ++ construct.source).length := by
    simp only [width, List.length_append, List.length_cons]
    omega
  rw [split, length, List.getElem?_append_right (Nat.le_refl _), Nat.sub_self,
    ← List.head?_eq_getElem?]

section

variable {Admits : Option CodeUnit → Construct → Prop} {tail other : List CodeUnit}

theorem spelled_append_iff {first second : List Construct} :
    Spelled Admits (first ++ second) tail ↔
      Spelled Admits first (sourceAll second ++ tail) ∧ Spelled Admits second tail := by
  induction first with
  | nil => exact ⟨fun spelled => ⟨trivial, spelled⟩, And.right⟩
  | cons construct rest ih =>
    simp only [List.cons_append, Spelled, ih, sourceAll_append, List.append_assoc, and_assoc]

/-- Either every construct may stand where it does, or there is a first one that may not. -/
theorem spelled_or_first (Admits : Option CodeUnit → Construct → Prop)
    (constructs : List Construct) (tail : List CodeUnit) :
    Spelled Admits constructs tail ∨
      ∃ before construct after, constructs = before ++ construct :: after ∧
        Spelled Admits before (sourceAll (construct :: after) ++ tail) ∧
        ¬Admits (sourceAll after ++ tail).head? construct := by
  induction constructs with
  | nil => exact Or.inl trivial
  | cons construct rest ih =>
    by_cases admitted : Admits (sourceAll rest ++ tail).head? construct
    · rcases ih with spelled | ⟨before, blocked, after, rfl, spelled, refused⟩
      · exact Or.inl ⟨admitted, spelled⟩
      · refine Or.inr ⟨construct :: before, blocked, after, rfl, ⟨?_, spelled⟩, refused⟩
        rw [sourceAll_append, List.append_assoc] at admitted
        exact admitted
    · exact Or.inr ⟨[], construct, rest, rfl, trivial, admitted⟩

end

end Construct

end Unquote
