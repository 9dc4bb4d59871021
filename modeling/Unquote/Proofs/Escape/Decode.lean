import Unquote.Proofs.Body.Sequence
import Unquote.Reader

/-! Reading an escape at a reader's place. What comes of it is told by the escape that the text
begins with there, and it agrees with the step of a body at the same place. -/

namespace Unquote

/-- Units that begin with an octal escape: a digit from one to seven, or a zero before a decimal
digit. -/
def BeginsOctal (units : List CodeUnit) : Prop :=
  ∃ digit rest, units = digit :: rest ∧ digit.isOctalDigit ∧
    (digit = 0x30 → rest.head?.any (·.isDigit))

namespace Escape

variable {units : List CodeUnit}

theorem read?_of_beginsOctal (octal : BeginsOctal units) :
    ∃ first more fits, read? units = some (.octal first more fits) := by
  obtain ⟨unit, rest, rfl, isOctal, followed⟩ := octal
  rw [← OctalDigit.isSome_ofUnit?] at isOctal
  obtain ⟨digit, found⟩ := Option.isSome_iff_exists.1 isOctal
  cases OctalDigit.unit_of_ofUnit? found
  have grouped : ¬(digit = 0 ∧ ¬rest.head?.any (·.isDigit)) := by
    rintro ⟨rfl, lone⟩
    exact lone (followed rfl)
  rw [read?_octal, readOctal, if_neg grouped]
  exact ⟨_, _, _, rfl⟩

theorem beginsOctal_of_read {first : OctalDigit} {more : List OctalDigit}
    {fits : more.length ≤ first.room} (found : read? units = some (.octal first more fits)) :
    BeginsOctal units := by
  obtain ⟨after, rfl, stays⟩ := read?_sound found
  refine ⟨first.unit, _, rfl, first.unit_isOctalDigit, fun zero => ?_⟩
  cases more with
  | nil => exact stays.2 (OctalDigit.val_of_unit zero) rfl
  | cons digit others => exact OctalDigit.unit_isDigit digit

end Escape

namespace Reader

variable {reader : Reader} {legacy : Legacy} {escape : Escape} {unit : CodeUnit}
  {more : List CodeUnit}

theorem peek?_eq (reader : Reader) (ahead : Nat) : reader.peek? ahead = reader.rest[ahead]? := by
  rw [peek?, rest, List.getElem?_drop]

theorem current?_eq (reader : Reader) : reader.current? = reader.rest.head? := by
  rw [current?, peek?_eq, List.head?_eq_getElem?]

theorem rest_advance (reader : Reader) (count : Nat) :
    (reader.advance count).rest = reader.rest.drop count := by
  rw [rest, rest, List.drop_drop, advance]

theorem rest_advance_one (here : reader.rest = unit :: more) : (reader.advance 1).rest = more := by
  rw [rest_advance, here, List.drop_one, List.tail_cons]

def succeed (reader : Reader) (escape : Escape) : Except SyntaxError Decoded × Reader :=
  (.ok escape.value, { reader with
    pos := reader.pos + escape.body.length, features := reader.features ∪ escape.features })

theorem succeed_of_unnoted (unnoted : escape.features = .empty) :
    reader.succeed escape = (.ok escape.value, reader.advance escape.body.length) := by
  simp only [succeed, unnoted, Features.empty_eq, Features.union_empty, advance]

def fail (reader : Reader) : Except SyntaxError Decoded × Reader :=
  (.error ⟨.invalidEscape, reader.offset⟩, reader.advance 1)

def answer (reader : Reader) : Option Escape → Except SyntaxError Decoded × Reader
  | some escape => reader.succeed escape
  | none => reader.fail

theorem decode_of_nil (ended : reader.rest = []) :
    reader.decode legacy =
      (.error ⟨.trailingBackslash, (Text.offset reader.pos - 1).toNat⟩, reader) := by
  have read : Escape.attempt legacy reader.rest = ⟨.error .trailingBackslash, 0, .empty⟩ := by
    rw [ended]
    rfl
  simp only [decode, read, Nat.add_zero, Features.empty_eq, Features.union_empty]

theorem decode_of_ended (ended : reader.rest = []) (after : 0 < reader.pos) :
    reader.decode legacy =
      (.error ⟨.trailingBackslash, (Text.offset (reader.pos - 1)).toNat⟩, reader) := by
  obtain ⟨backslash, place⟩ := Nat.exists_eq_add_one.2 after
  rw [decode_of_nil ended, place, Text.offset_succ_sub_one, Nat.add_sub_cancel]

theorem decode_of_read (found : Escape.read? reader.rest = some escape)
    (permitted : legacy.Permits escape) : reader.decode legacy = reader.succeed escape := by
  simp only [decode, Escape.attempt_of_permitted found permitted, succeed]

theorem decode_of_refused (found : Escape.read? reader.rest = some escape)
    (refused : ¬legacy.Permits escape) :
    reader.decode legacy = (.error ⟨.invalidEscape, reader.offset⟩, { reader.advance 1 with
      features := reader.features ∪ escape.refusedFeatures }) := by
  simp only [decode, Escape.attempt_of_refused found refused, Text.offset_succ_sub_one, offset,
    advance]

theorem decode_of_unread (unread : Escape.read? reader.rest = none) (present : reader.rest ≠ []) :
    reader.decode legacy = reader.fail := by
  simp only [decode, Escape.attempt_of_unread unread present, Text.offset_succ_sub_one,
    Features.empty_eq, Features.union_empty, fail, offset, advance]

inductive Decodes (legacy : Legacy) (reader : Reader) :
    Except SyntaxError Decoded × Reader → Prop
  | read (escape : Escape) (more : List CodeUnit) (here : reader.rest = escape.body ++ more) :
    Decodes legacy reader (reader.succeed escape)
  | ended (ended : reader.rest = []) :
    Decodes legacy reader
      (.error ⟨.trailingBackslash, (Text.offset reader.pos - 1).toNat⟩, reader)
  | refused (octal : legacy = .refused ∧ BeginsOctal reader.rest) :
    Decodes legacy reader (.error ⟨.invalidEscape, reader.offset⟩, { reader.advance 1 with
      features := reader.features ∪ .ofOctalEscape })
  | broken (other : ¬(legacy = .refused ∧ BeginsOctal reader.rest)) :
    Decodes legacy reader reader.fail

theorem decodes (legacy : Legacy) (reader : Reader) :
    Decodes legacy reader (reader.decode legacy) := by
  by_cases ended : reader.rest = []
  · rw [decode_of_nil ended]
    exact .ended ended
  · cases found : Escape.read? reader.rest with
    | none =>
      rw [decode_of_unread found ended]
      apply Decodes.broken
      rintro ⟨-, octal⟩
      obtain ⟨first, more, fits, read⟩ := Escape.read?_of_beginsOctal octal
      rw [found] at read
      contradiction
    | some escape =>
      by_cases permitted : legacy.Permits escape
      · obtain ⟨more, here, -⟩ := Escape.read?_sound found
        rw [decode_of_read found permitted]
        exact .read escape more here
      · rw [decode_of_refused found permitted]
        by_cases octal : BeginsOctal reader.rest
        · obtain ⟨first, more, fits, read⟩ := Escape.read?_of_beginsOctal octal
          have strict := (Legacy.refused_of_not_permits permitted).2
          rw [found] at read
          cases read
          exact .refused ⟨strict, octal⟩
        · have unnoted : escape.refusedFeatures = .empty := by
            cases escape with
            | octal first more fits => exact absurd (Escape.beginsOctal_of_read found) octal
            | _ => rfl
          rw [unnoted, Features.empty_eq, Features.union_empty]
          exact .broken fun both => octal both.2

theorem decode_of_other (here : reader.rest = unit :: more) (other : unit.isDigit = false) :
    reader.decode legacy = reader.answer (Escape.read? reader.rest) := by
  cases found : Escape.read? reader.rest with
  | none =>
    have present : reader.rest ≠ [] := by
      rw [here]
      exact List.cons_ne_nil unit more
    exact decode_of_unread found present
  | some escape =>
    refine decode_of_read found fun old => ?_
    obtain ⟨after, split, -⟩ := Escape.read?_sound found
    rw [here] at split
    have digit := Escape.isDigit_of_isLegacy old split
    rw [other] at digit
    contradiction

/-- Reading an escape and the step of a body at its backslash come to the same. -/
theorem decode_cases (legacy : Legacy) (κ : Type) (after : 0 < reader.pos) :
    (∃ escape more, reader.rest = escape.body ++ more ∧
      (Step.ofEscape legacy reader.rest : Step κ) = .piece (.escape escape) ∧
      reader.decode legacy = reader.succeed escape) ∨
    ∃ fault offset, (Step.ofEscape legacy reader.rest : Step κ) = .fault fault offset ∧
      (reader.decode legacy).1 = .error ⟨fault, (Text.offset (reader.pos - 1 + offset)).toNat⟩ := by
  obtain ⟨escape, more, split, fits, permitted, step⟩ | ⟨none_permitted, step⟩ :=
    Step.ofEscape_cases (κ := κ) legacy reader.rest
  · have read := Escape.read?_eq_some_iff.2 ⟨more, split, fits⟩
    exact Or.inl ⟨escape, more, split, step, decode_of_read read permitted⟩
  · rw [step]
    by_cases ended : reader.rest = []
    · rw [if_pos ended, decode_of_ended ended after]
      exact Or.inr ⟨_, _, rfl, rfl⟩
    · have place : reader.pos - 1 + 1 = reader.pos := Nat.sub_add_cancel after
      rw [if_neg ended]
      refine Or.inr ⟨_, _, rfl, ?_⟩
      rw [place]
      cases found : Escape.read? reader.rest with
      | none => rw [decode_of_unread found ended]; rfl
      | some escape =>
        obtain ⟨more, split, fits⟩ := Escape.read?_sound found
        rw [decode_of_refused found (none_permitted escape more split fits)]
        rfl

end Reader

end Unquote
