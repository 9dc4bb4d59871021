import Unquote.Proofs.Escape.Step

/-! Reading a body, told by what the step of a token may take. Every text is constructs, each of
which may stand where it does, and then a place where reading ends: the end of the text, a closing
delimiter or a fault. That division of the text decides what the reading answers. -/

namespace Unquote

namespace Construct

@[simp] theorem sourceAll_nil : sourceAll [] = [] := rfl

@[simp] theorem sourceAll_cons (construct : Construct) (rest : List Construct) :
    sourceAll (construct :: rest) = construct.source ++ sourceAll rest := rfl

@[simp] theorem sourceAll_append (first second : List Construct) :
    sourceAll (first ++ second) = sourceAll first ++ sourceAll second :=
  List.flatMap_append

theorem source_ne_nil (construct : Construct) : construct.source ≠ [] :=
  List.ne_nil_of_length_pos construct.width_pos

/-- Each of the constructs may stand where it does, with `tail` after the last of them. -/
def Spelled (Admits : Option CodeUnit → Construct → Prop) :
    List Construct → List CodeUnit → Prop
  | [], _ => True
  | construct :: rest, tail =>
    Admits (sourceAll rest ++ tail).head? construct ∧ Spelled Admits rest tail

variable {Admits : Option CodeUnit → Construct → Prop}

/-- Only the last construct looks at what follows them all, and only at its first unit. -/
theorem Spelled.follow_last {constructs : List Construct} {tail other : List CodeUnit}
    (spelled : Spelled Admits constructs tail)
    (kept : ∀ construct ∈ constructs.getLast?,
      Admits tail.head? construct → Admits other.head? construct) :
    Spelled Admits constructs other := by
  induction constructs with
  | nil => trivial
  | cons construct rest ih =>
    cases rest with
    | nil => exact ⟨kept construct rfl spelled.1, trivial⟩
    | cons next more =>
      obtain ⟨first, others, same⟩ := List.exists_cons_of_ne_nil next.source_ne_nil
      refine ⟨?_, ih spelled.2 kept⟩
      simpa only [sourceAll_cons, same, List.cons_append, List.head?_cons] using spelled.1

theorem Spelled.follow {constructs : List Construct} {tail other : List CodeUnit}
    (spelled : Spelled Admits constructs tail)
    (kept : ∀ construct, Admits tail.head? construct → Admits other.head? construct) :
    Spelled Admits constructs other :=
  spelled.follow_last fun construct _ => kept construct

end Construct

namespace Body

/-- A step with an account of it: the constructs it takes and what may follow each, the delimiters
that it closes with, and the units that it refuses. -/
structure Rules (κ : Type) where
  step : CodeUnit → List CodeUnit → Step κ
  legacy : Legacy
  /-- Whether a construct may stand where `next` is the unit after it. -/
  Admits : Option CodeUnit → Construct → Prop
  delimiter : κ → List CodeUnit
  /-- The units that may not stand unescaped. -/
  Refuses : CodeUnit → Prop
  piece_iff : ∀ {unit rest construct}, step unit rest = .piece construct ↔
    ∃ after, unit :: rest = construct.source ++ after ∧ Admits after.head? construct
  close_iff : ∀ {unit rest mark width}, step unit rest = .close mark width ↔
    width = (delimiter mark).length ∧ ∃ after, unit :: rest = delimiter mark ++ after
  fault_iff : ∀ {unit rest fault offset}, step unit rest = .fault fault offset ↔
    unit = .backslash ∧ Step.ofEscape (κ := κ) legacy rest = .fault fault offset ∨
      Refuses unit ∧ fault = .lineTermination ∧ offset = 0
  admits_ended : ∀ {unit construct}, unit.isDigit = false →
    Admits (some unit) construct → Admits none construct
  admits_before : ∀ {unit construct}, unit.isJoining = false →
    Admits none construct → Admits (some unit) construct
  refuses_other : ∀ {unit}, Refuses unit → unit.isDigit = false
  delimiter_apart : ∀ mark, ∃ unit rest, delimiter mark = unit :: rest ∧ unit.isJoining = false
  delimiter_of_end : ∀ {mark other units others},
    units ++ delimiter mark = others ++ delimiter other → mark = other

section

variable {κ : Type} {step : CodeUnit → List CodeUnit → Step κ}

theorem readFrom_skip (skip pos : Nat) (done : List Construct) (units : List CodeUnit) :
    readFrom step skip pos done units = readFrom step 0 pos done (units.drop skip) := by
  induction units generalizing skip with
  | nil => cases skip <;> rfl
  | cons unit rest ih =>
    cases skip with
    | zero => rfl
    | succ skip => exact ih skip

theorem readFrom_piece {unit : CodeUnit} {rest after : List CodeUnit} {construct : Construct}
    (taken : step unit rest = .piece construct)
    (split : unit :: rest = construct.source ++ after) (pos : Nat) (done : List Construct) :
    readFrom step 0 pos done (unit :: rest) =
      readFrom step 0 (pos + construct.width) (construct :: done) after := by
  obtain ⟨first, others, same⟩ := List.exists_cons_of_ne_nil construct.source_ne_nil
  have width : construct.width - 1 = others.length := by
    simp [Construct.width, same]
  have remaining : rest = others ++ after := by
    rw [same] at split
    exact (List.cons.inj split).2
  calc
    _ = readFrom step (construct.width - 1) (pos + construct.width) (construct :: done) rest := by
      simp only [readFrom, taken]
    _ = readFrom step 0 (pos + construct.width) (construct :: done) after := by
      rw [readFrom_skip, width, remaining, List.drop_left]

end

namespace Rules

variable {κ : Type} (rules : Rules κ)

def Spelled (constructs : List Construct) (tail : List CodeUnit) : Prop :=
  Construct.Spelled rules.Admits constructs tail

/-- How reading ends, once the constructs are read and `tail` is left. -/
inductive Ends (constructs : List Construct) :
    List CodeUnit → Except SyntaxError (Body κ) → Prop
  | exhausted : Ends constructs [] (.error ⟨.unterminated, 0⟩)
  | closed (mark : κ) : Ends constructs (rules.delimiter mark) (.ok ⟨constructs, mark⟩)
  | overrun (mark : κ) (unit : CodeUnit) (rest : List CodeUnit) :
    Ends constructs (rules.delimiter mark ++ unit :: rest)
      (.error ⟨.pastEnd,
        1 + (Construct.sourceAll constructs).length + (rules.delimiter mark).length⟩)
  | fault {unit : CodeUnit} {rest : List CodeUnit} {fault : Fault} {offset : Nat}
    (found : rules.step unit rest = .fault fault offset) :
    Ends constructs (unit :: rest)
      (.error ⟨fault, 1 + (Construct.sourceAll constructs).length + offset⟩)

variable {rules}

theorem readFrom_spelled {constructs : List Construct} {tail : List CodeUnit}
    (spelled : rules.Spelled constructs tail) (pos : Nat) (done : List Construct) :
    readFrom rules.step 0 pos done (Construct.sourceAll constructs ++ tail) =
      readFrom rules.step 0 (pos + (Construct.sourceAll constructs).length)
        (constructs.reverse ++ done) tail := by
  induction constructs generalizing pos done with
  | nil => rfl
  | cons construct rest ih =>
    obtain ⟨first, others, same⟩ := List.exists_cons_of_ne_nil construct.source_ne_nil
    have split : first :: (others ++ (Construct.sourceAll rest ++ tail)) =
        construct.source ++ (Construct.sourceAll rest ++ tail) := by
      rw [same, List.cons_append]
    have taken := rules.piece_iff.2 ⟨_, split, spelled.1⟩
    have moved := readFrom_piece taken split pos done
    rw [Construct.sourceAll_cons, List.append_assoc, ← split, moved, ih spelled.2]
    simp [Construct.width, Nat.add_assoc]

/-- Every text is some constructs and a place where none can be read. -/
theorem exists_spelled (rules : Rules κ) (units : List CodeUnit) :
    ∃ constructs tail, units = Construct.sourceAll constructs ++ tail ∧
      rules.Spelled constructs tail ∧
      ∀ unit rest construct, tail = unit :: rest → rules.step unit rest ≠ .piece construct := by
  -- A construct may take several units, so the induction is on how many are left.
  generalize size : units.length = length
  induction length using Nat.strongRecOn generalizing units with
  | ind length ih =>
    cases units with
    | nil => exact ⟨[], [], rfl, trivial, nofun⟩
    | cons unit rest =>
      cases step : rules.step unit rest with
      | piece construct =>
        obtain ⟨after, split, admitted⟩ := rules.piece_iff.1 step
        have lengths := congrArg List.length split
        have positive : 0 < construct.source.length := construct.width_pos
        simp only [List.length_append, size] at lengths
        obtain ⟨constructs, tail, same, spelled, stuck⟩ :=
          ih after.length (by omega) after rfl
        refine ⟨construct :: constructs, tail, ?_, ⟨?_, spelled⟩, stuck⟩
        · rw [split, same, Construct.sourceAll_cons, List.append_assoc]
        · rw [← same]
          exact admitted
      | close mark width =>
        refine ⟨[], unit :: rest, rfl, trivial, ?_⟩
        intro other others construct same taken
        cases same
        rw [step] at taken
        contradiction
      | fault fault offset =>
        refine ⟨[], unit :: rest, rfl, trivial, ?_⟩
        intro other others construct same taken
        cases same
        rw [step] at taken
        contradiction

theorem exists_ends (constructs : List Construct) {tail : List CodeUnit}
    (stuck : ∀ unit rest construct, tail = unit :: rest →
      rules.step unit rest ≠ .piece construct) :
    ∃ result, rules.Ends constructs tail result := by
  cases tail with
  | nil => exact ⟨_, .exhausted⟩
  | cons unit rest =>
    cases step : rules.step unit rest with
    | piece construct => exact absurd step (stuck unit rest construct rfl)
    | close mark width =>
      obtain ⟨-, after, split⟩ := rules.close_iff.1 step
      rw [split]
      cases after with
      | nil =>
        rw [List.append_nil]
        exact ⟨_, .closed mark⟩
      | cons next more => exact ⟨_, .overrun mark next more⟩
    | fault fault offset => exact ⟨_, .fault step⟩

theorem Ends.readFrom_eq {constructs : List Construct} {tail : List CodeUnit}
    {result : Except SyntaxError (Body κ)} (ends : rules.Ends constructs tail result) :
    readFrom rules.step 0 (1 + (Construct.sourceAll constructs).length) constructs.reverse tail =
      result := by
  cases ends with
  | exhausted => rfl
  | closed mark =>
    obtain ⟨unit, rest, same, -⟩ := rules.delimiter_apart mark
    have step := rules.close_iff.2 ⟨rfl, [], same.symm.trans (List.append_nil _).symm⟩
    have width : rest.length < (rules.delimiter mark).length := by simp [same]
    rw [same]
    simp only [readFrom, step, if_pos width, List.reverse_reverse]
  | overrun mark next more =>
    obtain ⟨unit, rest, same, -⟩ := rules.delimiter_apart mark
    have step : rules.step unit (rest ++ next :: more) =
        .close mark (rules.delimiter mark).length :=
      rules.close_iff.2 ⟨rfl, next :: more, congrArg (· ++ next :: more) same.symm⟩
    have width : ¬(rest ++ next :: more).length < (rules.delimiter mark).length := by
      simp [same]
    rw [same, List.cons_append]
    simp only [readFrom, step, if_neg width, ← same]
  | fault found => simp only [readFrom, found]

/-- A body is read as constructs that may stand where they do and an end. -/
theorem read_eq_iff {units : List CodeUnit} {result : Except SyntaxError (Body κ)} :
    read rules.step units = result ↔
      ∃ constructs tail, units = Construct.sourceAll constructs ++ tail ∧
        rules.Spelled constructs tail ∧ rules.Ends constructs tail result := by
  have run : ∀ {constructs tail result}, rules.Spelled constructs tail →
      rules.Ends constructs tail result →
      read rules.step (Construct.sourceAll constructs ++ tail) = result := by
    intro constructs tail result spelled ends
    rw [read, readFrom_spelled spelled, List.append_nil, ends.readFrom_eq]
  apply Iff.intro
  · intro read
    cases read
    obtain ⟨constructs, tail, split, spelled, stuck⟩ := exists_spelled rules units
    obtain ⟨result, ends⟩ := exists_ends constructs stuck
    refine ⟨constructs, tail, split, spelled, ?_⟩
    rw [split, run spelled ends]
    exact ends
  · intro found
    obtain ⟨constructs, tail, rfl, spelled, ends⟩ := found
    exact run spelled ends

theorem fault_cases {unit : CodeUnit} {rest : List CodeUnit} {fault : Fault} {offset : Nat}
    (found : rules.step unit rest = .fault fault offset) :
    fault = .trailingBackslash ∨ fault = .invalidEscape ∨ fault = .lineTermination := by
  rcases rules.fault_iff.1 found with ⟨-, escape⟩ | ⟨-, refused, -⟩
  · rcases Step.ofEscape_eq_fault_iff.1 escape with ⟨-, trailing, -⟩ | ⟨-, invalid, -⟩
    · exact Or.inl trailing
    · exact Or.inr (Or.inl invalid)
  · exact Or.inr (Or.inr refused)

theorem fault_ne {unit : CodeUnit} {rest : List CodeUnit} {fault : Fault} {offset : Nat}
    (found : rules.step unit rest = .fault fault offset) :
    fault ≠ .unterminated ∧ fault ≠ .pastEnd := by
  rcases fault_cases found with rfl | rfl | rfl <;> decide

theorem read_ne_malformed (units : List CodeUnit) (expected : TokenKind) (pos : Nat) :
    read rules.step units ≠ .error ⟨.malformedDelimiter expected, pos⟩ := by
  intro read
  obtain ⟨constructs, tail, -, -, ends⟩ := read_eq_iff.1 read
  cases ends with
  | fault found => rcases fault_cases found with same | same | same <;> contradiction

theorem read_eq_ok_iff {units : List CodeUnit} {constructs : List Construct} {mark : κ} :
    read rules.step units = .ok ⟨constructs, mark⟩ ↔
      units = Construct.sourceAll constructs ++ rules.delimiter mark ∧
        rules.Spelled constructs (rules.delimiter mark) := by
  rw [read_eq_iff]
  apply Iff.intro
  · intro found
    obtain ⟨read, tail, split, spelled, ends⟩ := found
    cases ends with
    | closed => exact ⟨split, spelled⟩
  · intro found
    obtain ⟨split, spelled⟩ := found
    exact ⟨constructs, _, split, spelled, .closed mark⟩

theorem read_eq_unterminated_iff {units : List CodeUnit} {pos : Nat} :
    read rules.step units = .error ⟨.unterminated, pos⟩ ↔
      pos = 0 ∧ ∃ constructs, units = Construct.sourceAll constructs ∧
        rules.Spelled constructs [] := by
  rw [read_eq_iff]
  apply Iff.intro
  · intro found
    obtain ⟨constructs, tail, split, spelled, ends⟩ := found
    cases ends with
    | exhausted => exact ⟨rfl, constructs, split.trans (List.append_nil _), spelled⟩
    | fault found => exact absurd rfl (fault_ne found).1
  · intro found
    obtain ⟨rfl, constructs, rfl, spelled⟩ := found
    exact ⟨constructs, [], (List.append_nil _).symm, spelled, .exhausted⟩

theorem read_eq_pastEnd_iff {units : List CodeUnit} {pos : Nat} :
    read rules.step units = .error ⟨.pastEnd, pos⟩ ↔
      ∃ constructs mark unit rest,
        units = Construct.sourceAll constructs ++ rules.delimiter mark ++ unit :: rest ∧
        rules.Spelled constructs (rules.delimiter mark) ∧
        pos = 1 + (Construct.sourceAll constructs).length + (rules.delimiter mark).length := by
  rw [read_eq_iff]
  have heads : ∀ mark after, (rules.delimiter mark ++ after).head? =
      (rules.delimiter mark).head? := by
    intro mark after
    obtain ⟨first, others, same, -⟩ := rules.delimiter_apart mark
    rw [same]
    rfl
  apply Iff.intro
  · intro found
    obtain ⟨constructs, tail, split, spelled, ends⟩ := found
    cases ends with
    | overrun mark unit rest =>
      refine ⟨constructs, mark, unit, rest, by simpa using split, ?_, rfl⟩
      exact spelled.follow fun _ admitted => heads mark _ ▸ admitted
    | fault found => exact absurd rfl (fault_ne found).2
  · intro found
    obtain ⟨constructs, mark, unit, rest, split, spelled, rfl⟩ := found
    refine ⟨constructs, _, by simpa using split, ?_, .overrun mark unit rest⟩
    exact spelled.follow fun _ admitted => (heads mark _).symm ▸ admitted

theorem read_eq_fault_iff {units : List CodeUnit} {fault : Fault} {pos : Nat}
    (inside : fault ≠ .unterminated ∧ fault ≠ .pastEnd) :
    read rules.step units = .error ⟨fault, pos⟩ ↔
      ∃ constructs unit rest offset, units = Construct.sourceAll constructs ++ unit :: rest ∧
        rules.Spelled constructs (unit :: rest) ∧
        rules.step unit rest = .fault fault offset ∧
        pos = 1 + (Construct.sourceAll constructs).length + offset := by
  rw [read_eq_iff]
  apply Iff.intro
  · intro found
    obtain ⟨constructs, tail, split, spelled, ends⟩ := found
    cases ends with
    | exhausted => exact absurd rfl inside.1
    | overrun => exact absurd rfl inside.2
    | fault found => exact ⟨constructs, _, _, _, split, spelled, found, rfl⟩
  · intro found
    obtain ⟨constructs, unit, rest, offset, split, spelled, step, rfl⟩ := found
    exact ⟨constructs, unit :: rest, split, spelled, .fault step⟩

end Rules

end Body

end Unquote
