import Unquote.Escape.Basic
import Unquote.TracedUnit

/-! The constructs that the body of a token is made of. They tile the body, so the offset of each
is the length of those before it. -/

namespace Unquote

inductive Construct where
  /-- A unit that stands for itself. -/
  | raw (unit : CodeUnit)
  /-- A raw carriage return and line feed, which count as one line feed. -/
  | crlf
  | escape (escape : Escape)
deriving DecidableEq

namespace Construct

def source : Construct → List CodeUnit
  | raw unit => [unit]
  | crlf => [.carriageReturn, .lineFeed]
  | escape inner => inner.source

def width (construct : Construct) : Nat := construct.source.length

theorem width_pos (construct : Construct) : 0 < construct.width := by
  cases construct <;> simp [width, source, Escape.source]

def value : Construct → Decoded
  | raw unit => .unit unit
  | crlf => .unit .lineFeed
  | escape inner => inner.value

def features : Construct → Features
  | raw unit => if unit.isSeparator then .ofLineTerminator else .empty
  | crlf => .empty
  | escape inner => inner.features

def trace (start : Nat) (construct : Construct) : List TracedUnit :=
  construct.value.trace start construct.source

/-- Puts the units of the constructs, in reverse, in front of `done`. -/
def traceOnto (done : List TracedUnit) (start : Nat) : List Construct → List TracedUnit
  | [] => done
  | construct :: rest =>
    traceOnto ((construct.trace start).reverse ++ done) (start + construct.width) rest

def traceAll (start : Nat) (constructs : List Construct) : List TracedUnit :=
  (traceOnto [] start constructs).reverse

theorem traceOnto_eq (done : List TracedUnit) (start : Nat) (constructs : List Construct) :
    traceOnto done start constructs = (traceAll start constructs).reverse ++ done := by
  induction constructs generalizing done start with
  | nil => rfl
  | cons construct rest ih =>
    simp only [traceAll, traceOnto, List.reverse_reverse]
    rw [ih, ih ((construct.trace start).reverse ++ [])]
    simp

theorem traceAll_nil (start : Nat) : traceAll start [] = [] := rfl

theorem traceAll_cons (start : Nat) (construct : Construct) (rest : List Construct) :
    traceAll start (construct :: rest) =
      construct.trace start ++ traceAll (start + construct.width) rest := by
  rw [traceAll, traceOnto, traceOnto_eq]
  simp

def sourceAll (constructs : List Construct) : List CodeUnit := constructs.flatMap (·.source)

def featuresAll (constructs : List Construct) : Features :=
  constructs.foldl (fun noted construct => noted ∪ construct.features) ∅

end Construct

end Unquote
