import Unquote.Escape.Read
import Unquote.SyntaxError

/-! Reading an escape where legacy forms may be refused. Whether a form is allowed is decided after
it is read, so refusing the legacy forms changes nothing for the others. -/

namespace Unquote

/-- Whether octal escapes, and an escaped eight or nine, are allowed. -/
inductive Legacy where
  | allowed
  | refused
deriving DecidableEq

structure Attempt where
  outcome : Except Fault Escape
  width : Nat
  features : Features

namespace Escape

/-- The features noted when the form is refused: an octal escape is noted before it is refused,
an eight or a nine is not. -/
def refusedFeatures : Escape → Features
  | octal .. => .ofOctalEscape
  | _ => .empty

/-- Reads the escape that the units after a backslash begin with. A fault passes no more than the
unit that announces the escape. -/
def attempt (legacy : Legacy) (units : List CodeUnit) : Attempt :=
  match read? units with
  | some escape =>
    if escape.isLegacy ∧ legacy = .refused then
      ⟨.error .invalidEscape, 1, escape.refusedFeatures⟩
    else
      ⟨.ok escape, escape.body.length, escape.features⟩
  | none =>
    if units = [] then ⟨.error .trailingBackslash, 0, .empty⟩
    else ⟨.error .invalidEscape, 1, .empty⟩

theorem attempt_width_le {legacy : Legacy} {units : List CodeUnit} {fault : Fault}
    (failed : (attempt legacy units).outcome = .error fault) :
    (attempt legacy units).width ≤ 1 := by
  unfold attempt at failed ⊢
  split
  next escape found =>
    simp only [found] at failed
    split
    next => exact Nat.le_refl 1
    next permitted =>
      rw [if_neg permitted] at failed
      contradiction
  next =>
    split
    next => exact Nat.zero_le 1
    next => exact Nat.le_refl 1

end Escape

end Unquote
