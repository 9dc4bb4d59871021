import Unquote.CodeUnit

/-! Operations that a machine cannot always carry out. Each of them checks its operands and traps
where it has no answer, so a reading that is made of them answers only if no operand was wrong. -/

namespace Unquote

inductive Trap where
  /-- A slice does not lie within its text. -/
  | slice
  /-- A difference is below zero. -/
  | underflow
  /-- A number does not fit its word. -/
  | overflow
  /-- A loop takes more turns than it may. -/
  | turns
deriving DecidableEq

/-- An answer, unless an operation on the way to it traps. -/
abbrev Checked := Except Trap

namespace Checked

def sub (whole part : Nat) : Checked Nat :=
  if part ≤ whole then .ok (whole - part) else .error .underflow

/-- A number as a word that has `size` values. -/
def fit (size number : Nat) : Checked Nat :=
  if number < size then .ok number else .error .overflow

def slice (text : List CodeUnit) (first last : Nat) : Checked (List CodeUnit) :=
  if first ≤ last ∧ last ≤ text.length then .ok ((text.drop first).take (last - first))
  else .error .slice

theorem sub_eq {whole part : Nat} (inside : part ≤ whole) : sub whole part = .ok (whole - part) :=
  if_pos inside

theorem fit_eq {size number : Nat} (small : number < size) : fit size number = .ok number :=
  if_pos small

theorem slice_eq {text : List CodeUnit} {first last : Nat} (ordered : first ≤ last)
    (inside : last ≤ text.length) :
    slice text first last = .ok ((text.drop first).take (last - first)) :=
  if_pos ⟨ordered, inside⟩

@[simp] theorem ok_bind {α β : Type} (value : α) (next : α → Checked β) :
    ((.ok value : Checked α) >>= next) = next value := rfl

end Checked

end Unquote
