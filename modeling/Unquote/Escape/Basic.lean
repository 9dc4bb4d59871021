import Unquote.Decoded
import Unquote.Digit
import Unquote.Features

/-! The escapes of the grammar. An escape keeps every choice of its spelling, so it has one
source, and its value and features are read off it. -/

namespace Unquote

def maxCodePoint : Nat := 0x10FFFF

inductive Control where
  | backspace
  | formFeed
  | lineFeed
  | carriageReturn
  | tab
  | verticalTab
deriving DecidableEq

namespace Control

def letter : Control → CodeUnit
  | backspace => 0x62
  | formFeed => 0x66
  | lineFeed => 0x6E
  | carriageReturn => 0x72
  | tab => 0x74
  | verticalTab => 0x76

def code : Control → CodeUnit
  | backspace => 0x08
  | formFeed => 0x0C
  | lineFeed => 0x0A
  | carriageReturn => 0x0D
  | tab => 0x09
  | verticalTab => 0x0B

end Control

/-- A line break as a line continuation counts it: a carriage return takes a line feed along. -/
inductive LineBreak where
  | lineFeed
  | carriageReturn
  | crlf
  | lineSeparator
  | paragraphSeparator
deriving DecidableEq

namespace LineBreak

def units : LineBreak → List CodeUnit
  | lineFeed => [.lineFeed]
  | carriageReturn => [.carriageReturn]
  | crlf => [.carriageReturn, .lineFeed]
  | lineSeparator => [.lineSeparator]
  | paragraphSeparator => [.paragraphSeparator]

def extend (first : LineBreak) (rest : List CodeUnit) : LineBreak :=
  if first = carriageReturn ∧ rest.head? = some .lineFeed then crlf else first

end LineBreak

/-- What the unit after a backslash announces. -/
inductive Lead where
  | control (named : Control)
  | hex
  | unicode
  | lineBreak (first : LineBreak)
  | octal (digit : OctalDigit)
  | eight
  | nine
  /-- The unit stands for itself. -/
  | plain
deriving DecidableEq

def Lead.ofUnit : CodeUnit → Lead
  | 0x62 => .control .backspace
  | 0x66 => .control .formFeed
  | 0x6E => .control .lineFeed
  | 0x72 => .control .carriageReturn
  | 0x74 => .control .tab
  | 0x76 => .control .verticalTab
  | 0x78 => .hex
  | 0x75 => .unicode
  | 0x0A => .lineBreak .lineFeed
  | 0x0D => .lineBreak .carriageReturn
  | 0x2028 => .lineBreak .lineSeparator
  | 0x2029 => .lineBreak .paragraphSeparator
  | 0x38 => .eight
  | 0x39 => .nine
  | unit =>
    match OctalDigit.ofUnit? unit with
    | some digit => .octal digit
    | none => .plain

theorem Lead.ofUnit_letter (named : Control) : ofUnit named.letter = .control named := by
  cases named <;> rfl

theorem Lead.ofUnit_octal (digit : OctalDigit) : ofUnit digit.unit = .octal digit := by
  decide +revert

theorem Lead.isLineBreak_iff (unit : CodeUnit) :
    unit.isLineBreak ↔ ∃ first, ofUnit unit = .lineBreak first := by
  constructor
  · intro found
    simp only [CodeUnit.isLineBreak, decide_eq_true_eq] at found
    rcases found with rfl | rfl | rfl | rfl
    · exact ⟨.lineFeed, rfl⟩
    · exact ⟨.carriageReturn, rfl⟩
    · exact ⟨.lineSeparator, rfl⟩
    · exact ⟨.paragraphSeparator, rfl⟩
  · rintro ⟨first, found⟩
    unfold ofUnit at found
    split at found <;> try contradiction
    · rfl
    · rfl
    · rfl
    · rfl
    · split at found <;> contradiction

/-- How many more digits an octal escape may take: its value stays below 256. -/
def OctalDigit.room (first : OctalDigit) : Nat := if first.val ≤ 3 then 2 else 1

/-- An escape, less the backslash that introduces it. -/
inductive Escape where
  | control (named : Control)
  | hex (high low : HexDigit)
  | unicode (first second third fourth : HexDigit)
  | codePoint (digits : List HexDigit) (nonempty : digits ≠ [])
      (inRange : HexDigit.number digits ≤ maxCodePoint)
  | lineContinuation (lineBreak : LineBreak)
  /-- A zero that no decimal digit follows. -/
  | nul
  | octal (first : OctalDigit) (more : List OctalDigit) (fits : more.length ≤ first.room)
  | eight
  | nine
  | identity (unit : CodeUnit) (plain : Lead.ofUnit unit = .plain)
deriving DecidableEq

namespace Escape

def body : Escape → List CodeUnit
  | control named => [named.letter]
  | hex high low => [0x78, high.unit, low.unit]
  | unicode first second third fourth =>
    [0x75, first.unit, second.unit, third.unit, fourth.unit]
  | codePoint digits _ _ => 0x75 :: .openBrace :: digits.map (·.unit) ++ [.closeBrace]
  | lineContinuation lineBreak => lineBreak.units
  | nul => [0x30]
  | octal first more _ => first.unit :: more.map (·.unit)
  | eight => [0x38]
  | nine => [0x39]
  | identity unit _ => [unit]

def source (escape : Escape) : List CodeUnit := .backslash :: escape.body

def value : Escape → Decoded
  | control named => .unit named.code
  | hex high low => .unit (.ofNat (HexDigit.number [high, low]))
  | unicode first second third fourth =>
    .unit (.ofNat (HexDigit.number [first, second, third, fourth]))
  | codePoint digits _ _ => .ofCodePoint (HexDigit.number digits)
  | lineContinuation _ => .nothing
  | nul => .unit 0
  | octal first more _ => .unit (.ofNat (OctalDigit.number (first :: more)))
  | eight => .unit 0x38
  | nine => .unit 0x39
  | identity unit _ => .unit unit

def features : Escape → Features
  | codePoint .. => .ofCodePointEscape
  | octal .. | eight | nine => .ofOctalEscape
  | _ => .empty

def isLegacy : Escape → Bool
  | octal .. | eight | nine => true
  | _ => false

theorem body_ne_nil (escape : Escape) : escape.body ≠ [] := by
  cases escape with
  | lineContinuation lineBreak => cases lineBreak <;> exact List.cons_ne_nil _ _
  | codePoint digits => simp [body]
  | _ => exact List.cons_ne_nil _ _

end Escape

end Unquote
