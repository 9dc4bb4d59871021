import Unquote.Decoded
import Unquote.Text.Span

/-! Units of a token's value, each with the stretch of source that it came from. The two halves
of a pair share their source, and only they carry a mark. -/

namespace Unquote

inductive Half where
  | high
  | low
deriving DecidableEq

def Half.name : Half → String
  | .high => "high"
  | .low => "low"

structure TracedUnit where
  code : CodeUnit
  /-- The offset of the construct that the unit came from. -/
  start : Nat
  /-- The whole construct, as it stands in the token. -/
  source : List CodeUnit
  /-- Set on the halves of a code point that a single escape gave. -/
  half : Option Half
deriving DecidableEq

namespace TracedUnit

def length (unit : TracedUnit) : Nat := unit.source.length

def stop (unit : TracedUnit) : Nat := unit.start + unit.length

def span (unit : TracedUnit) : Text.Span := ⟨unit.start, unit.length⟩

theorem span_stop (unit : TracedUnit) : unit.span.stop = unit.stop := rfl

def isEmpty (unit : TracedUnit) : Bool := unit.source.isEmpty

def char? (unit : TracedUnit) : Option Char := unit.code.char?

def sourceText (unit : TracedUnit) : String := Utf16.decodeLossy unit.source

end TracedUnit

def Decoded.trace (start : Nat) (source : List CodeUnit) : Decoded → List TracedUnit
  | .nothing => []
  | .unit code => [⟨code, start, source, none⟩]
  | .pair high low => [⟨high, start, source, some .high⟩, ⟨low, start, source, some .low⟩]

theorem Decoded.trace_code (start : Nat) (source : List CodeUnit) (decoded : Decoded) :
    (decoded.trace start source).map (·.code) = decoded.units := by
  cases decoded <;> rfl

end Unquote
