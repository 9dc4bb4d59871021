import Unquote.Construct

/-! Stretches of a text that follow each other, with the units that each of them gives. Only a line
continuation gives none, so the units leave out nothing else. -/

namespace Unquote

def LineBreak.continuation (lineBreak : LineBreak) : List CodeUnit := .backslash :: lineBreak.units

def Continued (text : List CodeUnit) : Prop :=
  ∃ breaks : List LineBreak, text = breaks.flatMap (·.continuation)

/-- What may come of a source that stands at `start`. -/
inductive Gives (start : Nat) (source : List CodeUnit) : List TracedUnit → Prop
  | continuation (lineBreak : LineBreak) (written : source = lineBreak.continuation) :
    Gives start source []
  | single (code : CodeUnit) (apart : ∀ lineBreak : LineBreak, source ≠ lineBreak.continuation) :
    Gives start source [⟨code, start, source, none⟩]
  | pair (high low : CodeUnit)
    (apart : ∀ lineBreak : LineBreak, source ≠ lineBreak.continuation) :
    Gives start source [⟨high, start, source, some .high⟩, ⟨low, start, source, some .low⟩]

structure Stretch where
  start : Nat
  stop : Nat
  units : List TracedUnit

/-- Stretches that cover a text from one offset to another, each where the one before it ends. -/
inductive Tiled (text : List CodeUnit) : Nat → List Stretch → Nat → Prop
  | done (place : Nat) : Tiled text place [] place
  | step {start middle stop : Nat} {units : List TracedUnit} {rest : List Stretch}
    (proper : start < middle) (gives : Gives start (text.extract start middle) units)
    (tiled : Tiled text middle rest stop) :
    Tiled text start (⟨start, middle, units⟩ :: rest) stop

def TracedUnit.Paired (first second : TracedUnit) : Prop :=
  first.half = some .high ∧ second.half = some .low ∧ first.start = second.start ∧
    first.source = second.source

/-- Where the last of the units ends, or `start` if there are none. -/
def reach (start : Nat) (units : List TracedUnit) : Nat :=
  (units.getLast?.map (·.stop)).getD start

def onset (units : List TracedUnit) (stop : Nat) : Nat :=
  (units.head?.map (·.start)).getD stop

/-- What lies between two parts of the units of a text: line continuations, or nothing at all where
a pair comes apart. -/
def Gap (text : List CodeUnit) (start : Nat) (before after : List TracedUnit) (stop : Nat) : Prop :=
  (reach start before ≤ onset after stop ∧
    Continued (text.extract (reach start before) (onset after stop))) ∨
  ∃ high ∈ before.getLast?, ∃ low ∈ after.head?, high.Paired low

section

variable {text : List CodeUnit} {start middle stop : Nat}

theorem extract_self (text : List CodeUnit) (place : Nat) : text.extract place place = [] := by
  simp

theorem extract_append (early : start ≤ middle) (late : middle ≤ stop) :
    text.extract start middle ++ text.extract middle stop = text.extract start stop := by
  have whole : stop - start = (middle - start) + (stop - middle) := by omega
  have skip : start + (middle - start) = middle := by omega
  simp only [List.extract_eq_take_drop]
  rw [whole, List.take_add, List.drop_drop, skip]

theorem length_extract (start : Nat) (inside : stop ≤ text.length) :
    (text.extract start stop).length = stop - start := by
  simp only [List.extract_eq_take_drop, List.length_take, List.length_drop]
  omega

end

namespace Gives

variable {start : Nat} {source : List CodeUnit} {units : List TracedUnit}

theorem placed (gives : Gives start source units) {unit : TracedUnit} (emitted : unit ∈ units) :
    unit.start = start ∧ unit.source = source := by
  cases gives with
  | continuation lineBreak written => contradiction
  | single code apart =>
    cases List.mem_singleton.1 emitted
    exact ⟨rfl, rfl⟩
  | pair high low apart =>
    rcases List.mem_cons.1 emitted with same | other
    · rw [same]
      exact ⟨rfl, rfl⟩
    · cases List.mem_singleton.1 other
      exact ⟨rfl, rfl⟩

theorem stop_eq {text : List CodeUnit} {stop : Nat}
    (gives : Gives start (text.extract start stop) units) (proper : start < stop)
    (inside : stop ≤ text.length) : ∀ unit ∈ units, unit.stop = stop := by
  intro unit emitted
  obtain ⟨begins, written⟩ := gives.placed emitted
  rw [TracedUnit.stop, TracedUnit.length, begins, written, length_extract start inside]
  exact Nat.add_sub_of_le (Nat.le_of_lt proper)

theorem ordered (gives : Gives start source units) :
    units.Pairwise fun first second => first.start ≤ second.start := by
  cases gives <;> simp

/-- The source comes back if each pair is counted once. -/
theorem rebuilt (gives : Gives start source units)
    (apart : ∀ lineBreak : LineBreak, source ≠ lineBreak.continuation) :
    (units.filter (·.half ≠ some .low)).flatMap (·.source) = source := by
  cases gives with
  | continuation lineBreak written => exact absurd written (apart lineBreak)
  | single code _ => simp
  | pair high low _ => simp

end Gives

namespace Tiled

variable {text : List CodeUnit} {start stop : Nat} {stretches : List Stretch}

theorem le (tiled : Tiled text start stretches stop) : start ≤ stop := by
  induction tiled with
  | done place => exact Nat.le_refl place
  | step proper gives tiled ih => omega

theorem bounds (tiled : Tiled text start stretches stop) {stretch : Stretch}
    (member : stretch ∈ stretches) :
    start ≤ stretch.start ∧ stretch.start < stretch.stop ∧ stretch.stop ≤ stop := by
  induction tiled with
  | done place => contradiction
  | step proper gives tiled ih =>
    rcases List.mem_cons.1 member with same | later
    · rw [same]
      exact ⟨Nat.le_refl _, proper, tiled.le⟩
    · have within := ih later
      omega

theorem placed (tiled : Tiled text start stretches stop) (inside : stop ≤ text.length)
    {stretch : Stretch} (member : stretch ∈ stretches) {unit : TracedUnit}
    (emitted : unit ∈ stretch.units) :
    unit.start = stretch.start ∧ unit.stop = stretch.stop := by
  induction tiled with
  | done place => contradiction
  | step proper gives tiled ih =>
    rcases List.mem_cons.1 member with same | later
    · cases same
      exact ⟨(gives.placed emitted).1,
        gives.stop_eq proper (Nat.le_trans tiled.le inside) unit emitted⟩
    · exact ih inside later

theorem ordered (tiled : Tiled text start stretches stop) (inside : stop ≤ text.length) :
    (stretches.flatMap (·.units)).Pairwise fun first second => first.start ≤ second.start := by
  induction tiled with
  | done place => exact List.Pairwise.nil
  | step proper gives tiled ih =>
    rw [List.flatMap_cons, List.pairwise_append]
    refine ⟨gives.ordered, ih inside, ?_⟩
    intro first emitted second later
    obtain ⟨stretch, member, given⟩ := List.mem_flatMap.1 later
    rw [(gives.placed emitted).1, (tiled.placed inside member given).1]
    have after := (tiled.bounds member).1
    omega

theorem rebuilt (tiled : Tiled text start stretches stop)
    (apart : ∀ stretch ∈ stretches, ∀ lineBreak : LineBreak,
      text.extract stretch.start stretch.stop ≠ lineBreak.continuation) :
    ((stretches.flatMap (·.units)).filter (·.half ≠ some .low)).flatMap (·.source) =
      text.extract start stop := by
  induction tiled with
  | done place => exact (extract_self text place).symm
  | step proper gives tiled ih =>
    obtain ⟨here, later⟩ := List.forall_mem_cons.1 apart
    rw [List.flatMap_cons, List.filter_append, List.flatMap_append, gives.rebuilt here, ih later]
    exact extract_append (Nat.le_of_lt proper) tiled.le

end Tiled

section

variable {text : List CodeUnit} {start stop : Nat} {before after : List TracedUnit}

theorem reach_cons (start : Nat) (unit : TracedUnit) (rest : List TracedUnit) :
    reach start (unit :: rest) = reach unit.stop rest := by
  rw [reach, reach, List.getLast?_cons]
  cases rest.getLast? <;> rfl

theorem Gap.refl (text : List CodeUnit) (place : Nat) (unit : TracedUnit) (after : List TracedUnit)
    (stop : Nat) (begins : unit.start = place) : Gap text place [] (unit :: after) stop := by
  have same : onset (unit :: after) stop = place := begins
  refine Or.inl ⟨Nat.le_of_eq same.symm, [], ?_⟩
  rw [same]
  exact extract_self text place

theorem Gap.extend {middle : Nat} {lineBreak : LineBreak}
    (gap : Gap text middle before after stop) (proper : start < middle)
    (written : text.extract start middle = lineBreak.continuation) :
    Gap text start before after stop := by
  cases before with
  | nil =>
    rcases gap with ⟨early, breaks, continued⟩ | ⟨high, absent, -⟩
    · have begun : start ≤ middle := Nat.le_of_lt proper
      refine Or.inl ⟨Nat.le_trans begun early, lineBreak :: breaks, ?_⟩
      rw [List.flatMap_cons, ← written, ← continued]
      exact (extract_append begun early).symm
    · contradiction
  | cons unit rest =>
    rw [Gap, reach_cons] at gap ⊢
    exact gap

theorem Gap.cons {unit : TracedUnit} (gap : Gap text unit.stop before after stop) :
    Gap text start (unit :: before) after stop := by
  rcases gap with ⟨early, continued⟩ | ⟨high, last, low, first, paired⟩
  · rw [Gap, reach_cons]
    exact Or.inl ⟨early, continued⟩
  · refine Or.inr ⟨high, ?_, low, first, paired⟩
    rw [List.getLast?_cons, Option.mem_def.1 last]
    rfl

/-- Wherever the units are parted, no more than line continuations lies between. -/
theorem Tiled.gap {stretches : List Stretch} (tiled : Tiled text start stretches stop)
    (inside : stop ≤ text.length) (split : stretches.flatMap (·.units) = before ++ after) :
    Gap text start before after stop := by
  induction tiled generalizing before with
  | done place =>
    obtain ⟨rfl, rfl⟩ := List.append_eq_nil_iff.1 split.symm
    exact Or.inl ⟨Nat.le_refl place, [], extract_self text place⟩
  | step proper gives tiled ih =>
    have ends := gives.stop_eq proper (Nat.le_trans tiled.le inside)
    rw [List.flatMap_cons] at split
    cases gives with
    | continuation lineBreak written => exact (ih inside split).extend proper written
    | single code apart =>
      cases before with
      | nil =>
        cases split
        exact Gap.refl text _ _ _ _ rfl
      | cons unit before =>
        obtain ⟨rfl, others⟩ := List.cons.inj split
        have gap := ih inside others
        rw [← ends _ List.mem_cons_self] at gap
        exact gap.cons
    | pair high low apart =>
      match before, split with
      | [], split =>
        cases split
        exact Gap.refl text _ _ _ _ rfl
      | [unit], split =>
        -- The units are parted inside the pair, where the text has no gap.
        cases split
        exact Or.inr ⟨_, rfl, _, rfl, rfl, rfl, rfl, rfl⟩
      | first :: second :: before, split =>
        obtain ⟨rfl, further⟩ := List.cons.inj split
        obtain ⟨rfl, others⟩ := List.cons.inj further
        have gap := ih inside others
        rw [← ends _ (List.mem_cons_of_mem _ List.mem_cons_self)] at gap
        exact gap.cons.cons

end

end Unquote
