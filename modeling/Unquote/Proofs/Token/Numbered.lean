import Mathlib.Algebra.Group.Nat.Defs
import Mathlib.Data.Nat.Log
import Unquote.Proofs.Token.Enclosed

/-! Values written by their numbers. A unit may be spelled in two digits or in four, and a code point
in braces, with zeros before it and letters in either case. Whatever is spelled so, in a literal or
in a template token, is read as the values that it was spelled from. -/

namespace Unquote

namespace HexDigit

def ofValue (upper : Bool) (value : Fin 16) : HexDigit where
  unit := .ofNat (if value.val < 10 then 0x30 + value.val
    else if upper then 0x37 + value.val else 0x57 + value.val)
  isHex := by decide +revert

def zero : HexDigit := ⟨0x30, rfl⟩

/-- The last `width` digits of a number, each in the case that is chosen for its place. -/
def spell (upper : Nat → Bool) : Nat → Nat → List HexDigit
  | 0, _ => []
  | width + 1, value =>
    spell upper width (value / 16) ++ [ofValue (upper width) (.ofNat 16 value)]

end HexDigit

/-- A value that is written by its number. The case of each digit may be chosen by its place. -/
inductive Numbered where
  | byte (value : UInt8) (upper : Nat → Bool)
  | unit (value : CodeUnit) (upper : Nat → Bool)
  | codePoint (value : Nat) (inRange : value ≤ maxCodePoint) (zeros : Nat) (upper : Nat → Bool)

namespace Numbered

def digits : Numbered → List HexDigit
  | byte value upper => HexDigit.spell upper 2 value.toNat
  | unit value upper => HexDigit.spell upper 4 value.toNat
  | codePoint value _ zeros upper =>
    List.replicate zeros .zero ++ HexDigit.spell upper (Nat.log 16 value + 1) value

def source (item : Numbered) : List CodeUnit :=
  match item with
  | byte .. => [.backslash, 0x78] ++ item.digits.map (·.unit)
  | unit .. => [.backslash, 0x75] ++ item.digits.map (·.unit)
  | codePoint .. => [.backslash, 0x75, .openBrace] ++ item.digits.map (·.unit) ++ [.closeBrace]

def codes : Numbered → List CodeUnit
  | byte value _ => [.ofNat value.toNat]
  | unit value _ => [value]
  | codePoint value .. => Utf16.encodeCodePoint value

def halves : Numbered → List (Option Half)
  | codePoint value .. => if value ≤ 0xFFFF then [none] else [some .high, some .low]
  | byte .. | unit .. => [none]

def isBraced : Numbered → Bool
  | codePoint .. => true
  | byte .. | unit .. => false

def trace (start : Nat) (item : Numbered) : List TracedUnit :=
  List.zipWith (fun code half => ⟨code, start, item.source, half⟩) item.codes item.halves

def written (items : List Numbered) : List CodeUnit := items.flatMap (·.source)

def traceAll (start : Nat) : List Numbered → List TracedUnit
  | [] => []
  | item :: rest => item.trace start ++ traceAll (start + item.source.length) rest

def features (items : List Numbered) : Features :=
  if items.any (·.isBraced) then .ofCodePointEscape else .empty

theorem trace_code (start : Nat) (item : Numbered) :
    (item.trace start).map (·.code) = item.codes := by
  cases item with
  | byte value upper => rfl
  | unit value upper => rfl
  | codePoint value inRange zeros upper =>
    by_cases small : value ≤ 0xFFFF
    · simp only [trace, codes, halves, Utf16.encodeCodePoint, if_pos small]
      rfl
    · simp only [trace, codes, halves, Utf16.encodeCodePoint, if_neg small]
      rfl

theorem traceAll_code (start : Nat) (items : List Numbered) :
    (traceAll start items).map (·.code) = items.flatMap (·.codes) := by
  induction items generalizing start with
  | nil => rfl
  | cons item rest ih => rw [traceAll, List.map_append, trace_code, ih, List.flatMap_cons]

/-- A byte, a unit in letters of both cases, and a pair after two zeros. -/
example : written [.byte 0xA (· == 1), .unit 0xABCD (· == 0), .codePoint 0x1F600 (by decide) 2
    fun _ => true] = [.backslash, 0x78, 0x30, 0x41, .backslash, 0x75, 0x41, 0x62, 0x63, 0x64,
      .backslash, 0x75, .openBrace, 0x30, 0x30, 0x31, 0x46, 0x36, 0x30, 0x30, .closeBrace] := by
  decide

end Numbered

end Unquote
