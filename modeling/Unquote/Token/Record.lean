import Unquote.Json
import Unquote.Token.Basic

/-! Tokens as JSON. Text in a record has the replacement character for every unpaired surrogate,
so a record keeps the code of a unit beside its character. -/

namespace Unquote

def TracedUnit.record (unit : TracedUnit) : Json :=
  .object [
    ("char", .string (Utf16.decodeLossy [unit.code])),
    ("charCode", .number unit.code.toNat),
    ("start", .number unit.start),
    ("end", .number unit.stop),
    ("length", .number unit.length),
    ("source", .string unit.sourceText),
    ("surrogate", match unit.half with
      | some half => .string half.name
      | none => .null)]

def Features.record (features : Features) : Json :=
  .object [
    ("codePointEscape", .bool features.codePointEscape),
    ("lineTerminator", .bool features.lineTerminator),
    ("octalEscape", .bool features.octalEscape)]

def Token.record : Token → Json
  | string literal =>
    .object [
      ("codeUnits", .array (literal.units.map (·.record))),
      ("usedFeatures", literal.features.record)]
  | template inner =>
    .object [
      ("kind", .string inner.kind.name),
      ("codeUnits", .array (inner.units.map (·.record)))]

end Unquote
