import Mathlib.Algebra.Group.Nat.Defs
import Unquote.Proofs.Token.Scanner

/-! The grammar of bodies, told of units and apart from any reading. A body is items, and what an
item may be depends on the one unit that comes after it: that is where the longest match shows. -/

namespace Unquote.Grammar

structure Item where
  source : List CodeUnit
  value : List CodeUnit
deriving DecidableEq

def controls : List (CodeUnit × CodeUnit) :=
  [(0x62, 0x08), (0x66, 0x0C), (0x6E, 0x0A), (0x72, 0x0D), (0x74, 0x09), (0x76, 0x0B)]

/-- The units that mean something else after a backslash than themselves. -/
def announcing : List CodeUnit :=
  [0x62, 0x66, 0x6E, 0x72, 0x74, 0x76, 0x78, 0x75, .lineFeed, .carriageReturn, .lineSeparator,
    .paragraphSeparator, 0x30, 0x31, 0x32, 0x33, 0x34, 0x35, 0x36, 0x37, 0x38, 0x39]

/-- The number that digits spell in a base, as the sum of their place values. -/
def numeral (base : Nat) : List Nat → Nat
  | [] => 0
  | digit :: rest => digit * base ^ rest.length + numeral base rest

def octalLimit (first : OctalDigit) : Nat := if first.val ≤ 3 then 3 else 2

inductive PlainEscape (next : Option CodeUnit) : Item → Prop
  | lineFeed : PlainEscape next ⟨[.backslash, .lineFeed], []⟩
  | carriageReturn (apart : next ≠ some .lineFeed) :
    PlainEscape next ⟨[.backslash, .carriageReturn], []⟩
  | crlf : PlainEscape next ⟨[.backslash, .carriageReturn, .lineFeed], []⟩
  | lineSeparator : PlainEscape next ⟨[.backslash, .lineSeparator], []⟩
  | paragraphSeparator : PlainEscape next ⟨[.backslash, .paragraphSeparator], []⟩
  | control {letter code : CodeUnit} (named : (letter, code) ∈ controls) :
    PlainEscape next ⟨[.backslash, letter], [code]⟩
  | hex (high low : HexDigit) :
    PlainEscape next ⟨[.backslash, 0x78, high.unit, low.unit],
      [.ofNat (numeral 16 ([high, low].map (·.value)))]⟩
  | fourDigits (first second third fourth : HexDigit) :
    PlainEscape next
      ⟨[.backslash, 0x75, first.unit, second.unit, third.unit, fourth.unit],
        [.ofNat (numeral 16 ([first, second, third, fourth].map (·.value)))]⟩
  | braced (digits : List HexDigit) (nonempty : digits ≠ [])
    (inRange : numeral 16 (digits.map (·.value)) ≤ 0x10FFFF) :
    PlainEscape next
      ⟨[.backslash, 0x75, .openBrace] ++ digits.map (·.unit) ++ [.closeBrace],
        Utf16.encodeCodePoint (numeral 16 (digits.map (·.value)))⟩
  | nul (lone : ¬next.any (·.isDigit)) : PlainEscape next ⟨[.backslash, 0x30], [0]⟩
  | identity {unit : CodeUnit} (ordinary : unit ∉ announcing) :
    PlainEscape next ⟨[.backslash, unit], [unit]⟩

/-- The escapes that only a string literal may hold. An octal escape takes the digits that follow
up to its limit, and a zero on its own is one only where a decimal digit follows. -/
inductive LegacyEscape (next : Option CodeUnit) : Item → Prop
  | octal (first : OctalDigit) (more : List OctalDigit)
    (fits : (first :: more).length ≤ octalLimit first)
    (longest : (first :: more).length = octalLimit first ∨ ¬next.any (·.isOctalDigit))
    (grouped : first.val = 0 → more = [] → next.any (·.isDigit)) :
    LegacyEscape next
      ⟨.backslash :: first.unit :: more.map OctalDigit.unit,
        [.ofNat (numeral 8 ((first :: more).map (·.val)))]⟩
  | eight : LegacyEscape next ⟨[.backslash, 0x38], [0x38]⟩
  | nine : LegacyEscape next ⟨[.backslash, 0x39], [0x39]⟩

inductive StringItem (quote : Quote) (next : Option CodeUnit) : Item → Prop
  | raw {unit : CodeUnit} (notQuote : unit ≠ quote.unit) (notBackslash : unit ≠ .backslash)
    (notFeed : unit ≠ .lineFeed) (notReturn : unit ≠ .carriageReturn) :
    StringItem quote next ⟨[unit], [unit]⟩
  | plain {item : Item} (escape : PlainEscape next item) : StringItem quote next item
  | legacy {item : Item} (escape : LegacyEscape next item) : StringItem quote next item

inductive TemplateItem (next : Option CodeUnit) : Item → Prop
  | crlf : TemplateItem next ⟨[.carriageReturn, .lineFeed], [.lineFeed]⟩
  | dollar (apart : next ≠ some .openBrace) : TemplateItem next ⟨[.dollar], [.dollar]⟩
  | raw {unit : CodeUnit} (notBacktick : unit ≠ .backtick) (notBackslash : unit ≠ .backslash)
    (notDollar : unit ≠ .dollar)
    (apart : unit = .carriageReturn → next ≠ some .lineFeed) :
    TemplateItem next ⟨[unit], [unit]⟩
  | plain {item : Item} (escape : PlainEscape next item) : TemplateItem next item

/-- Items one after another, each as it may be before the unit that comes next. -/
def Sequence (Allowed : Option CodeUnit → Item → Prop) :
    List Item → List CodeUnit → Prop
  | [], _ => True
  | item :: rest, tail =>
    Allowed (rest.flatMap (·.source) ++ tail).head? item ∧ Sequence Allowed rest tail

private theorem foldl_eq_numeral {α : Type} (base : Nat) (value : α → Nat) (digits : List α)
    (total : Nat) :
    digits.foldl (fun sum digit => base * sum + value digit) total =
      total * base ^ digits.length + numeral base (digits.map value) := by
  induction digits generalizing total with
  | nil => simp [numeral]
  | cons digit rest ih =>
    rw [List.foldl_cons, ih, List.map_cons, numeral, List.length_map, List.length_cons,
      Nat.pow_succ, Nat.add_mul, Nat.mul_comm base total, Nat.mul_assoc, Nat.mul_comm base,
      Nat.add_assoc]

theorem number_eq_numeral (digits : List HexDigit) :
    HexDigit.number digits = numeral 16 (digits.map (·.value)) := by
  simpa [HexDigit.number] using foldl_eq_numeral 16 HexDigit.value digits 0

theorem octal_number_eq_numeral (digits : List OctalDigit) :
    OctalDigit.number digits = numeral 8 (digits.map (·.val)) := by
  simpa [OctalDigit.number] using foldl_eq_numeral 8 Fin.val digits 0

def escapeItem (escape : Escape) : Item := ⟨escape.source, escape.value.units⟩

def constructItem (construct : Construct) : Item := ⟨construct.source, construct.value.units⟩

private theorem mem_announcing {unit : CodeUnit} {lead : Lead} (announced : lead.Announced unit)
    (special : lead ≠ .plain) : unit ∈ announcing := by
  cases lead with
  | control named =>
    rw [show unit = named.letter from announced]
    cases named <;> decide
  | lineBreak first =>
    obtain ⟨single, same⟩ := announced
    cases first with
    | crlf => contradiction
    | _ =>
      cases same
      decide
  | octal digit =>
    rw [show unit = digit.unit from announced]
    clear announced special
    decide +revert
  | plain => contradiction
  | _ =>
    cases announced
    decide

theorem ofUnit_eq_plain_iff {unit : CodeUnit} :
    Lead.ofUnit unit = .plain ↔ unit ∉ announcing := by
  apply Iff.intro
  · intro plain member
    simp only [announcing, List.mem_cons, List.not_mem_nil, or_false] at member
    rcases member with rfl | rfl | rfl | rfl | rfl | rfl | rfl | rfl | rfl | rfl | rfl | rfl |
      rfl | rfl | rfl | rfl | rfl | rfl | rfl | rfl | rfl | rfl <;> contradiction
  · intro ordinary
    exact Decidable.byContradiction fun special =>
      ordinary (mem_announcing (Lead.announced_ofUnit unit) special)

theorem mem_controls_iff {letter code : CodeUnit} :
    (letter, code) ∈ controls ↔ ∃ named : Control, named.letter = letter ∧ named.code = code := by
  apply Iff.intro
  · intro member
    simp only [controls, List.mem_cons, List.not_mem_nil, or_false, Prod.mk.injEq] at member
    rcases member with ⟨rfl, rfl⟩ | ⟨rfl, rfl⟩ | ⟨rfl, rfl⟩ | ⟨rfl, rfl⟩ | ⟨rfl, rfl⟩ | ⟨rfl, rfl⟩
    · exact ⟨.backspace, rfl, rfl⟩
    · exact ⟨.formFeed, rfl, rfl⟩
    · exact ⟨.lineFeed, rfl, rfl⟩
    · exact ⟨.carriageReturn, rfl, rfl⟩
    · exact ⟨.tab, rfl, rfl⟩
    · exact ⟨.verticalTab, rfl, rfl⟩
  · intro found
    obtain ⟨named, rfl, rfl⟩ := found
    cases named <;> decide

theorem plainEscape_of_fits {next : Option CodeUnit} {escape : Escape}
    (fits : escape.Fits next) (modern : escape.isLegacy = false) :
    PlainEscape next (escapeItem escape) := by
  cases escape with
  | control named => exact .control (mem_controls_iff.2 ⟨named, rfl, rfl⟩)
  | hex high low =>
    have item : PlainEscape next _ := .hex high low
    rw [← number_eq_numeral] at item
    exact item
  | unicode first second third fourth =>
    have item : PlainEscape next _ := .fourDigits first second third fourth
    rw [← number_eq_numeral] at item
    exact item
  | codePoint digits nonempty inRange =>
    have item : PlainEscape next _ := .braced digits nonempty (number_eq_numeral digits ▸ inRange)
    rw [← number_eq_numeral, ← Decoded.units_ofCodePoint] at item
    exact item
  | lineContinuation lineBreak =>
    cases lineBreak with
    | lineFeed => exact .lineFeed
    | carriageReturn => exact .carriageReturn fits
    | crlf => exact .crlf
    | lineSeparator => exact .lineSeparator
    | paragraphSeparator => exact .paragraphSeparator
  | nul => exact .nul (by simpa [Escape.Fits] using fits)
  | identity unit plain => exact .identity (ofUnit_eq_plain_iff.1 plain)
  | _ => contradiction

theorem PlainEscape.exists_escape {next : Option CodeUnit} {item : Item}
    (allowed : PlainEscape next item) :
    ∃ escape : Escape, escape.Fits next ∧ escape.isLegacy = false ∧ escapeItem escape = item := by
  cases allowed with
  | lineFeed => exact ⟨.lineContinuation .lineFeed, trivial, rfl, rfl⟩
  | carriageReturn apart => exact ⟨.lineContinuation .carriageReturn, apart, rfl, rfl⟩
  | crlf => exact ⟨.lineContinuation .crlf, trivial, rfl, rfl⟩
  | lineSeparator => exact ⟨.lineContinuation .lineSeparator, trivial, rfl, rfl⟩
  | paragraphSeparator => exact ⟨.lineContinuation .paragraphSeparator, trivial, rfl, rfl⟩
  | control named =>
    obtain ⟨control, rfl, rfl⟩ := mem_controls_iff.1 named
    exact ⟨.control control, trivial, rfl, rfl⟩
  | hex high low =>
    refine ⟨.hex high low, trivial, rfl, ?_⟩
    rw [← number_eq_numeral]
    rfl
  | fourDigits first second third fourth =>
    refine ⟨.unicode first second third fourth, trivial, rfl, ?_⟩
    rw [← number_eq_numeral]
    rfl
  | braced digits nonempty inRange =>
    rw [← number_eq_numeral] at inRange
    refine ⟨.codePoint digits nonempty inRange, trivial, rfl, ?_⟩
    rw [← number_eq_numeral, ← Decoded.units_ofCodePoint]
    rfl
  | nul lone => exact ⟨.nul, by simpa [Escape.Fits] using lone, rfl, rfl⟩
  | identity ordinary => exact ⟨.identity _ (ofUnit_eq_plain_iff.2 ordinary), trivial, rfl, rfl⟩

private theorem octalLimit_eq (first : OctalDigit) : octalLimit first = first.room + 1 := by
  unfold octalLimit OctalDigit.room
  split <;> rfl

theorem legacyEscape_of_fits {next : Option CodeUnit} {escape : Escape}
    (fits : escape.Fits next) (legacy : escape.isLegacy = true) :
    LegacyEscape next (escapeItem escape) := by
  cases escape with
  | octal first more small =>
    have item := LegacyEscape.octal first more
      (by simpa [octalLimit_eq] using small)
      (by simpa [octalLimit_eq] using fits.1) fits.2
    rw [← octal_number_eq_numeral] at item
    exact item
  | eight => exact .eight
  | nine => exact .nine
  | _ => contradiction

theorem LegacyEscape.exists_escape {next : Option CodeUnit} {item : Item}
    (allowed : LegacyEscape next item) :
    ∃ escape : Escape, escape.Fits next ∧ escape.isLegacy = true ∧ escapeItem escape = item := by
  cases allowed with
  | octal first more fits longest grouped =>
    rw [octalLimit_eq] at fits longest
    refine ⟨.octal first more (by simpa using fits), ⟨by simpa using longest, grouped⟩, rfl, ?_⟩
    rw [← octal_number_eq_numeral]
    rfl
  | eight => exact ⟨.eight, trivial, rfl, rfl⟩
  | nine => exact ⟨.nine, trivial, rfl, rfl⟩

theorem stringItem_iff {quote : Quote} {next : Option CodeUnit} {item : Item} :
    StringItem quote next item ↔
      ∃ construct, constructItem construct = item ∧
        StringLiteral.Admits quote next construct := by
  apply Iff.intro
  · intro allowed
    cases allowed with
    | raw notQuote notBackslash notFeed notReturn =>
      exact ⟨.raw _, rfl, notQuote, notBackslash, notFeed, notReturn⟩
    | plain escape =>
      obtain ⟨inner, fits, -, rfl⟩ := escape.exists_escape
      exact ⟨.escape inner, rfl, fits⟩
    | legacy escape =>
      obtain ⟨inner, fits, -, rfl⟩ := escape.exists_escape
      exact ⟨.escape inner, rfl, fits⟩
  · intro found
    obtain ⟨construct, rfl, admitted⟩ := found
    cases construct with
    | raw unit => exact .raw admitted.1 admitted.2.1 admitted.2.2.1 admitted.2.2.2
    | crlf => exact False.elim admitted
    | escape inner =>
      cases legacy : inner.isLegacy with
      | false => exact .plain (plainEscape_of_fits admitted legacy)
      | true => exact .legacy (legacyEscape_of_fits admitted legacy)

theorem templateItem_iff {next : Option CodeUnit} {item : Item} :
    TemplateItem next item ↔
      ∃ construct, constructItem construct = item ∧ Template.Admits next construct := by
  apply Iff.intro
  · intro allowed
    cases allowed with
    | crlf => exact ⟨.crlf, rfl, trivial⟩
    | dollar apart =>
      exact ⟨.raw .dollar, rfl, by decide, by decide, fun same => apart same.2,
        fun same => absurd same.1 (by decide)⟩
    | raw notBacktick notBackslash notDollar apart =>
      exact ⟨.raw _, rfl, notBacktick, notBackslash, fun same => notDollar same.1,
        fun same => apart same.1 same.2⟩
    | plain escape =>
      obtain ⟨inner, fits, modern, rfl⟩ := escape.exists_escape
      exact ⟨.escape inner, rfl, modern, fits⟩
  · intro found
    obtain ⟨construct, rfl, admitted⟩ := found
    cases construct with
    | raw unit =>
      obtain ⟨notBacktick, notBackslash, notSubstitution, apart⟩ := admitted
      by_cases dollar : unit = .dollar
      · rw [dollar]
        exact .dollar fun brace => notSubstitution ⟨dollar, brace⟩
      · exact .raw notBacktick notBackslash dollar fun first second => apart ⟨first, second⟩
    | crlf => exact .crlf
    | escape inner => exact .plain (plainEscape_of_fits admitted.2 admitted.1)

theorem flatMap_source (constructs : List Construct) :
    (constructs.map constructItem).flatMap (·.source) = Construct.sourceAll constructs :=
  List.flatMap_map ..

/-- A sequence of allowed items is a sequence of admitted constructs. -/
theorem sequence_iff {Allowed : Option CodeUnit → Item → Prop}
    {Admits : Option CodeUnit → Construct → Prop}
    (same : ∀ next item, Allowed next item ↔
      ∃ construct, constructItem construct = item ∧ Admits next construct)
    {items : List Item} {tail : List CodeUnit} :
    Sequence Allowed items tail ↔
      ∃ constructs : List Construct, constructs.map constructItem = items ∧
        Construct.Spelled Admits constructs tail := by
  apply Iff.intro
  · intro sequence
    induction items with
    | nil => exact ⟨[], rfl, trivial⟩
    | cons item rest ih =>
      obtain ⟨construct, rfl, admitted⟩ := (same _ _).1 sequence.1
      obtain ⟨constructs, rfl, spelled⟩ := ih sequence.2
      rw [flatMap_source] at admitted
      exact ⟨construct :: constructs, rfl, admitted, spelled⟩
  · intro found
    obtain ⟨constructs, rfl, spelled⟩ := found
    induction constructs with
    | nil => trivial
    | cons construct rest ih =>
      refine ⟨(same _ _).2 ⟨construct, rfl, ?_⟩, ih spelled.2⟩
      rw [flatMap_source]
      exact spelled.1

theorem stringItems_iff {quote : Quote} {items : List Item} {tail : List CodeUnit} :
    Sequence (StringItem quote) items tail ↔
      ∃ constructs : List Construct, constructs.map constructItem = items ∧
        (StringLiteral.rules quote).Spelled constructs tail := by
  apply sequence_iff
  intro next item
  exact stringItem_iff

theorem templateItems_iff {items : List Item} {tail : List CodeUnit} :
    Sequence TemplateItem items tail ↔
      ∃ constructs : List Construct, constructs.map constructItem = items ∧
        Template.rules.Spelled constructs tail := by
  apply sequence_iff
  intro next item
  exact templateItem_iff

theorem traceAll_code (start : Nat) (constructs : List Construct) :
    (Construct.traceAll start constructs).map (·.code) =
      (constructs.map constructItem).flatMap (·.value) := by
  induction constructs generalizing start with
  | nil => rfl
  | cons construct rest ih =>
    rw [Construct.traceAll_cons, List.map_append, ih, List.map_cons, List.flatMap_cons]
    exact congrArg (· ++ _) (Decoded.trace_code start construct.source construct.value)

end Unquote.Grammar
