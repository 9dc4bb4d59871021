import Unquote.Proofs.Checked.Escape

/-! Sessions of a reader. It moves on, reads escapes and keeps their units, and after a fault it
goes on from where the fault left it. Wherever it is, a fault leaves it just after the place that
the fault is reported at, with the units and features that it had, but for an octal escape that was
refused. So its place only moves on, and nothing that it keeps is lost. -/

namespace Unquote

namespace Decoded

variable {start : Nat} {source : List CodeUnit} {decoded : Decoded}

theorem length_trace_le : (decoded.trace start source).length ≤ 2 := by
  cases decoded with
  | nothing => exact Nat.zero_le 2
  | unit code => exact Nat.le_succ 1
  | pair high low => exact Nat.le_refl 2

theorem placed_of_mem_trace {unit : TracedUnit} (member : unit ∈ decoded.trace start source) :
    unit.start = start ∧ unit.source = source := by
  cases decoded with
  | nothing => exact absurd member List.not_mem_nil
  | unit code =>
    rw [List.mem_singleton.1 member]
    exact ⟨rfl, rfl⟩
  | pair high low =>
    rcases List.mem_cons.1 member with rfl | later
    · exact ⟨rfl, rfl⟩
    · rw [List.mem_singleton.1 later]
      exact ⟨rfl, rfl⟩

end Decoded

namespace Session

inductive Move where
  | advance (count : Nat)
  /-- Reads the escape at a place just after a backslash. -/
  | decode (legacy : Legacy)
  /-- Reads the escape after a backslash and keeps its units. -/
  | scan (legacy : Legacy)
deriving DecidableEq

def Move.make (move : Move) (reader : Reader) :
    Except SyntaxError (List TracedUnit) × Reader :=
  match move with
  | advance count => (.ok [], reader.advance count)
  | decode legacy =>
    let (outcome, passed) := reader.decode legacy
    (outcome.map fun _ => [], passed)
  | scan legacy => reader.scan legacy

def Move.makeChecked (move : Move) (reader : Reader) :
    Checked (Except SyntaxError (List TracedUnit) × Reader) :=
  match move with
  | advance count => return (.ok [], reader.advance count)
  | decode legacy => do
    let (outcome, passed) ← Checked.decode legacy reader
    return (outcome.map fun _ => [], passed)
  | scan legacy => Checked.scan legacy reader

/-- The reader is where the move may be made: an escape is read only after some unit. -/
def Move.Allowed (reader : Reader) : Move → Prop
  | decode _ => 0 < reader.pos
  | _ => True

structure Turn where
  before : Reader
  move : Move

def readers (reader : Reader) : List Move → List Reader
  | [] => [reader]
  | move :: rest => reader :: readers (move.make reader).2 rest

def turns (reader : Reader) : List Move → List Turn
  | [] => []
  | move :: rest => ⟨reader, move⟩ :: turns (move.make reader).2 rest

/-- How a reader may change: it moves on in its text, and features and units are only added. -/
structure Grows (reader later : Reader) : Prop where
  text : later.text = reader.text
  pos : reader.pos ≤ later.pos
  features : ∃ more, later.features = reader.features ∪ more
  units : reader.units <+: later.units

/-- What a fault leaves of a reader that was just after a backslash. -/
structure Left (legacy : Legacy) (reader : Reader) (error : SyntaxError) (passed : Reader) :
    Prop where
  fault : error.fault = .trailingBackslash ∨ error.fault = .invalidEscape
  grows : Grows reader passed
  /-- The reader is just after the place that is reported, if that fits in 32 bits. -/
  pos : 0 < reader.pos → passed.pos ≤ UInt32.size → passed.pos = error.pos + 1
  units : passed.units = reader.units
  noted : legacy = .refused ∧ BeginsOctal reader.rest →
    passed.features = reader.features ∪ .ofOctalEscape
  unnoted : ¬(legacy = .refused ∧ BeginsOctal reader.rest) → passed.features = reader.features

structure Added (reader : Reader) (added : List TracedUnit) (passed : Reader) : Prop where
  grows : Grows reader passed
  pos : reader.pos + 2 ≤ passed.pos
  inside : passed.pos ≤ reader.text.length
  units : passed.units = reader.units ++ added
  few : added.length ≤ 2
  start : reader.pos < UInt32.size → ∀ unit ∈ added, unit.start = reader.pos
  source : ∀ unit ∈ added, unit.source = reader.slice reader.pos passed.pos

inductive Comes (reader : Reader) :
    Move → Except SyntaxError (List TracedUnit) × Reader → Prop
  | advanced (count : Nat) : Comes reader (.advance count) (.ok [], reader.advance count)
  | decoded {legacy : Legacy} {passed : Reader} (grows : Grows reader passed)
    (units : passed.units = reader.units) : Comes reader (.decode legacy) (.ok [], passed)
  | undecoded {legacy : Legacy} {error : SyntaxError} {passed : Reader}
    (left : Left legacy reader error passed) :
    Comes reader (.decode legacy) (.error error, passed)
  | scanned {legacy : Legacy} {units : List TracedUnit} {passed : Reader}
    (added : Added reader units passed) : Comes reader (.scan legacy) (.ok units, passed)
  | unscanned {legacy : Legacy} {error : SyntaxError} {passed : Reader}
    (left : Left legacy (reader.advance 1) error passed) :
    Comes reader (.scan legacy) (.error error, passed)

theorem Grows.refl (reader : Reader) : Grows reader reader where
  text := rfl
  pos := Nat.le_refl _
  features := ⟨∅, (Features.union_empty _).symm⟩
  units := List.prefix_refl _

theorem Grows.trans {first second third : Reader} (left : Grows first second)
    (right : Grows second third) : Grows first third where
  text := right.text.trans left.text
  pos := Nat.le_trans left.pos right.pos
  features := by
    obtain ⟨some, noted⟩ := left.features
    obtain ⟨more, added⟩ := right.features
    refine ⟨some ∪ more, ?_⟩
    rw [added, noted, Features.union_assoc]
  units := left.units.trans right.units

theorem grows_advance (reader : Reader) (count : Nat) : Grows reader (reader.advance count) where
  text := rfl
  pos := Nat.le_add_right _ _
  features := ⟨∅, (Features.union_empty _).symm⟩
  units := List.prefix_refl _

section

variable {legacy : Legacy} {reader passed : Reader} {error : SyntaxError}

theorem pos_of_passed (small : reader.pos + 1 ≤ UInt32.size) :
    reader.pos + 1 = reader.offset + 1 := by
  rw [Reader.offset_eq_pos small]

theorem left_of_decodes (step : reader.Decodes legacy (.error error, passed)) :
    Left legacy reader error passed := by
  cases step with
  | ended ended =>
    refine ⟨Or.inl rfl, Grows.refl reader, ?_, rfl, ?_, fun _ => rfl⟩
    · intro after small
      obtain ⟨backslash, place⟩ := Nat.exists_eq_add_one.2 after
      have short : backslash < UInt32.size := by omega
      show reader.pos = (Text.offset reader.pos - 1).toNat + 1
      rw [place, Text.offset_succ_sub_one, Text.offset_toNat short]
    · rintro ⟨-, digit, rest, more, -⟩
      rw [ended] at more
      contradiction
  | refused octal =>
    have grows : Grows reader { reader.advance 1 with
        features := reader.features ∪ .ofOctalEscape } :=
      ⟨rfl, Nat.le_succ _, ⟨_, rfl⟩, List.prefix_refl _⟩
    exact ⟨Or.inr rfl, grows, fun _ => pos_of_passed, rfl, fun _ => rfl,
      fun other => absurd octal other⟩
  | broken other =>
    exact ⟨Or.inr rfl, grows_advance reader 1, fun _ => pos_of_passed, rfl,
      fun octal => absurd octal other, fun _ => rfl⟩

theorem added_of_here {escape : Escape} {more : List CodeUnit} {added : List TracedUnit}
    (here : (reader.advance 1).rest = escape.body ++ more) (text : passed.text = reader.text)
    (stop : passed.pos = reader.pos + 1 + escape.body.length)
    (features : passed.features = reader.features ∪ escape.features)
    (trace : added = escape.value.trace reader.offset (reader.slice reader.pos passed.pos))
    (units : passed.units = reader.units ++ added) : Added reader added passed := by
  have positive := List.length_pos_iff.2 escape.body_ne_nil
  have lengths : reader.text.length - (reader.pos + 1) = escape.body.length + more.length := by
    rw [← List.length_append, ← here, Reader.rest, List.length_drop]
    rfl
  have grows : Grows reader passed := by
    refine ⟨text, by omega, ⟨_, features⟩, ?_⟩
    rw [units]
    exact List.prefix_append _ _
  subst trace
  refine ⟨grows, by omega, by omega, units, Decoded.length_trace_le, ?_, ?_⟩
  · intro small unit member
    rw [(Decoded.placed_of_mem_trace member).1, Reader.offset_eq_pos small]
  · intro unit member
    exact (Decoded.placed_of_mem_trace member).2

theorem comes_decode (legacy : Legacy) (reader : Reader) :
    Comes reader (.decode legacy) (Move.make (.decode legacy) reader) := by
  have step := reader.decodes legacy
  rw [Move.make]
  generalize reader.decode legacy = outcome at step ⊢
  cases step with
  | read escape more here =>
    exact .decoded ⟨rfl, Nat.le_add_right _ _, ⟨_, rfl⟩, List.prefix_refl _⟩ rfl
  | ended ended => exact .undecoded (left_of_decodes (.ended ended))
  | refused octal => exact .undecoded (left_of_decodes (.refused octal))
  | broken other => exact .undecoded (left_of_decodes (.broken other))

theorem comes_scan (legacy : Legacy) (reader : Reader) :
    Comes reader (.scan legacy) (Move.make (.scan legacy) reader) := by
  have step := (reader.advance 1).decodes legacy
  rw [Move.make, Reader.scan]
  generalize (reader.advance 1).decode legacy = outcome at step ⊢
  cases step with
  | read escape more here =>
    refine .scanned (added_of_here here ?_ ?_ ?_ ?_ ?_)
    all_goals rfl
  | ended ended => exact .unscanned (left_of_decodes (.ended ended))
  | refused octal => exact .unscanned (left_of_decodes (.refused octal))
  | broken other => exact .unscanned (left_of_decodes (.broken other))

end

theorem comes_make (move : Move) (reader : Reader) : Comes reader move (move.make reader) := by
  cases move with
  | advance count => exact .advanced count
  | decode legacy => exact comes_decode legacy reader
  | scan legacy => exact comes_scan legacy reader

theorem Comes.grows {move : Move} {reader : Reader}
    {outcome : Except SyntaxError (List TracedUnit) × Reader} (comes : Comes reader move outcome) :
    Grows reader outcome.2 := by
  cases comes with
  | advanced count => exact grows_advance reader count
  | decoded grows units => exact grows
  | undecoded left => exact left.grows
  | scanned added => exact added.grows
  | unscanned left => exact (grows_advance reader 1).trans left.grows

theorem makeChecked_eq {move : Move} {reader : Reader} (allowed : move.Allowed reader) :
    move.makeChecked reader = .ok (move.make reader) := by
  cases move with
  | advance count => rfl
  | decode legacy =>
    rw [Move.makeChecked, Checked.decode_eq legacy allowed]
    rfl
  | scan legacy => exact Checked.scan_eq legacy reader

theorem grows_of_mem_readers {reader later : Reader} {moves : List Move}
    (member : later ∈ readers reader moves) : Grows reader later := by
  induction moves generalizing reader with
  | nil =>
    rw [List.mem_singleton.1 member]
    exact Grows.refl reader
  | cons move rest ih =>
    rcases List.mem_cons.1 member with rfl | further
    · exact Grows.refl later
    · exact (comes_make move reader).grows.trans (ih further)

theorem readers_pairwise (reader : Reader) (moves : List Move) :
    (readers reader moves).Pairwise Grows := by
  induction moves generalizing reader with
  | nil => exact List.pairwise_singleton _ reader
  | cons move rest ih =>
    apply List.Pairwise.cons
    · intro later member
      exact (comes_make move reader).grows.trans (grows_of_mem_readers member)
    · exact ih (move.make reader).2

/-- Whatever faults a session meets, they leave its reader where they are reported and take nothing
from it. -/
theorem faults_leave_known_state (reader : Reader) (moves : List Move) :
    (readers reader moves).Pairwise Grows ∧
      ∀ turn ∈ turns reader moves,
        Comes turn.before turn.move (turn.move.make turn.before) ∧
          (turn.move.Allowed turn.before →
            turn.move.makeChecked turn.before = .ok (turn.move.make turn.before)) := by
  refine ⟨readers_pairwise reader moves, ?_⟩
  intro turn _
  exact ⟨comes_make turn.move turn.before, makeChecked_eq⟩

/-- A refused octal escape, an escape that is read, and two faults at the end of the text. -/
example : (readers (.start [.backslash, 0x31, .backslash, 0x71] ∅)
    [.scan .refused, .scan .refused, .scan .allowed, .decode .allowed]).map
      (fun reader => (reader.pos, reader.features.octalEscape, reader.units.length)) =
    [(0, false, 0), (2, true, 0), (4, true, 1), (5, true, 1), (5, true, 1)] := rfl

end Session

end Unquote
