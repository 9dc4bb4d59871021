import Unquote.Construct
import Unquote.Escape.Attempt

/-! Reading the body of a token up to its closing delimiter. A kind of token is known by the step
that it takes at each construct; what it means to run out of text, or to have text left after the
delimiter, is the same for all. -/

namespace Unquote

/-- What stands at one place of a body. -/
inductive Step (κ : Type) where
  | piece (construct : Construct)
  /-- The closing delimiter, of `width` units. -/
  | close (mark : κ) (width : Nat)
  /-- A fault, `offset` units further on. -/
  | fault (fault : Fault) (offset : Nat)

/-- The step at a backslash that `rest` follows. -/
def Step.ofEscape {κ : Type} (legacy : Legacy) (rest : List CodeUnit) : Step κ :=
  let attempt := Escape.attempt legacy rest
  match attempt.outcome with
  | .ok escape => .piece (.escape escape)
  | .error cause => .fault cause attempt.width

structure Body (κ : Type) where
  constructs : List Construct
  closing : κ

namespace Body

/-- Reads on after the constructs `done`, kept in reverse. The next `skip` units belong to the
last of them, and the units from `pos` on come after it. -/
def readFrom {κ : Type} (step : CodeUnit → List CodeUnit → Step κ) (skip pos : Nat)
    (done : List Construct) : List CodeUnit → Except SyntaxError (Body κ)
  | [] => .error ⟨.unterminated, 0⟩
  | unit :: rest =>
    match skip with
    | skip + 1 => readFrom step skip pos done rest
    | 0 =>
      match step unit rest with
      | .piece construct =>
        readFrom step (construct.width - 1) (pos + construct.width) (construct :: done) rest
      | .close mark width =>
        if rest.length < width then .ok ⟨done.reverse, mark⟩
        else .error ⟨.pastEnd, pos + width⟩
      | .fault fault offset => .error ⟨fault, pos + offset⟩

def read {κ : Type} (step : CodeUnit → List CodeUnit → Step κ) (units : List CodeUnit) :
    Except SyntaxError (Body κ) :=
  readFrom step 0 1 [] units

end Body

end Unquote
