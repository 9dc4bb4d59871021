import Unquote.Proofs.Token.Provenance

/-! The features of a literal, told by its units. A feature is used just where some unit has a
source of a certain form, so what gives no unit uses none. A zero after a backslash is the one
source that does not tell by itself: it is an octal escape only where a digit follows. -/

namespace Unquote

/-- A source that is an octal escape, or an escaped eight or nine, where `next` comes after it. -/
def IsLegacySource (next : Option CodeUnit) (source : List CodeUnit) : Prop :=
  (∃ digit rest, source = .backslash :: digit :: rest ∧ digit.isDigit) ∧
    ¬(source = [.backslash, 0x30] ∧ next.any (·.isDigit) = false)

theorem isDigit_of_isLegacySource {next : Option CodeUnit} {unit : CodeUnit}
    {rest : List CodeUnit} (written : IsLegacySource next (.backslash :: unit :: rest)) :
    unit.isDigit := by
  obtain ⟨⟨digit, more, same, isDigit⟩, -⟩ := written
  cases same
  exact isDigit

theorem isLegacySource_congr {next other : Option CodeUnit} {source : List CodeUnit}
    (same : source = [.backslash, 0x30] → next = other) :
    IsLegacySource next source ↔ IsLegacySource other source := by
  unfold IsLegacySource
  refine and_congr_right fun _ => not_congr (and_congr_right fun lone => ?_)
  rw [same lone]

theorem CodeUnit.digit_cases {unit : CodeUnit} (digit : unit.isDigit) :
    unit = 0x30 ∨ unit = 0x31 ∨ unit = 0x32 ∨ unit = 0x33 ∨ unit = 0x34 ∨ unit = 0x35 ∨
      unit = 0x36 ∨ unit = 0x37 ∨ unit = 0x38 ∨ unit = 0x39 := by
  simp only [isDigit, UInt16.le_iff_toNat_le, UInt16.reduceToNat, decide_eq_true_eq] at digit
  simp only [← UInt16.toNat_inj, UInt16.reduceToNat]
  omega

theorem Lead.not_isDigit_of_plain {unit : CodeUnit} (plain : ofUnit unit = .plain) :
    ¬unit.isDigit := by
  intro digit
  rcases CodeUnit.digit_cases digit with
    rfl | rfl | rfl | rfl | rfl | rfl | rfl | rfl | rfl | rfl <;> contradiction

namespace Escape

variable {escape : Escape} {next : Option CodeUnit}

theorem codePointEscape_iff :
    escape.features.codePointEscape ↔ [.backslash, 0x75, .openBrace] <+: escape.source := by
  rw [source, List.cons_prefix_cons]
  cases escape with
  | codePoint digits nonempty inRange => exact ⟨fun _ => ⟨rfl, _, rfl⟩, fun _ => rfl⟩
  | unicode first second third fourth =>
    have other := first.unit_ne_openBrace.symm
    simp [features, body, Features.empty, List.cons_prefix_cons, other]
  | control named => cases named <;> decide
  | lineContinuation lineBreak => cases lineBreak <;> decide
  | octal first more fits =>
    have other : 0x75 ≠ first.unit := by
      clear fits
      decide +revert
    simp [features, body, Features.ofOctalEscape, List.cons_prefix_cons, other]
  | _ => simp [features, body, Features.empty, Features.ofOctalEscape, List.cons_prefix_cons]

/-- A legacy escape is known by its source and the unit that comes next. -/
theorem isLegacy_iff (fits : escape.Fits next) :
    escape.isLegacy ↔ IsLegacySource next escape.source := by
  cases escape with
  | nul =>
    refine ⟨nofun, fun written => ?_⟩
    exact absurd ⟨rfl, fits⟩ written.2
  | octal first more small =>
    refine ⟨fun _ => ⟨⟨first.unit, _, rfl, OctalDigit.unit_isDigit first⟩, ?_⟩, fun _ => rfl⟩
    rintro ⟨lone, unfollowed⟩
    have alone : first.unit :: more.map OctalDigit.unit = [0x30] := (List.cons.inj lone).2
    obtain ⟨zeroUnit, others⟩ := List.cons.inj alone
    have zero := OctalDigit.val_of_unit zeroUnit
    rw [fits.2 zero (List.map_eq_nil_iff.1 others)] at unfollowed
    contradiction
  | eight => exact ⟨fun _ => ⟨⟨0x38, [], rfl, rfl⟩, nofun⟩, fun _ => rfl⟩
  | nine => exact ⟨fun _ => ⟨⟨0x39, [], rfl, rfl⟩, nofun⟩, fun _ => rfl⟩
  | control named =>
    refine ⟨nofun, fun written => absurd (isDigit_of_isLegacySource written) ?_⟩
    cases named <;> decide
  | lineContinuation lineBreak =>
    refine ⟨nofun, fun written => ?_⟩
    cases lineBreak <;> exact absurd (isDigit_of_isLegacySource written) (by decide)
  | identity unit plain =>
    exact ⟨nofun, fun written =>
      absurd (isDigit_of_isLegacySource written) (Lead.not_isDigit_of_plain plain)⟩
  | _ => exact ⟨nofun, fun written => absurd (isDigit_of_isLegacySource written) (by decide)⟩

end Escape

namespace Construct

variable {construct : Construct} {constructs : List Construct}

theorem features_of_nothing (nothing : construct.value = .nothing) : construct.features = ∅ := by
  cases construct with
  | raw unit => contradiction
  | crlf => contradiction
  | escape inner =>
    obtain ⟨lineBreak, written⟩ := exists_continuation nothing
    have breaks := isLineBreak_of_continuation lineBreak
    rw [← (List.cons.inj written).2] at breaks
    obtain ⟨other, rfl⟩ := inner.exists_lineBreak breaks
    rfl

theorem raw_features_cases (unit : CodeUnit) :
    (raw unit).features = if unit = .lineSeparator ∨ unit = .paragraphSeparator then
      .ofLineTerminator else .empty := by
  simp only [features, CodeUnit.isSeparator, decide_eq_true_eq]

theorem codePointEscape_iff :
    construct.features.codePointEscape ↔
      [.backslash, 0x75, .openBrace] <+: construct.source := by
  cases construct with
  | raw unit =>
    rw [raw_features_cases]
    split <;> simp [source, Features.ofLineTerminator, Features.empty, List.cons_prefix_cons]
  | crlf => decide
  | escape inner => exact inner.codePointEscape_iff

theorem lineTerminator_iff :
    construct.features.lineTerminator ↔
      construct.source = [.lineSeparator] ∨ construct.source = [.paragraphSeparator] := by
  cases construct with
  | raw unit =>
    rw [raw_features_cases]
    split <;> simp_all [source, Features.ofLineTerminator, Features.empty]
  | crlf => decide
  | escape inner =>
    have unused : inner.features.lineTerminator = false := by cases inner <;> rfl
    have longer : ∀ unit, (escape inner).source ≠ [unit] := by
      intro unit single
      cases eq_raw_of_source single
    simp [features, unused, longer]

theorem isLegacySource_iff {quote : Quote} {next : Option CodeUnit}
    (admitted : StringLiteral.Admits quote next construct) :
    construct.features.octalEscape ↔ IsLegacySource next construct.source := by
  rw [octalEscape_iff]
  cases construct with
  | escape inner =>
    refine Iff.trans ?_ (inner.isLegacy_iff admitted)
    simp
  | raw unit => simp [source, IsLegacySource]
  | crlf => exact False.elim admitted

/-- A feature that shows in the place and the source of a construct shows in the units. -/
theorem flag_iff (Shows : Nat → List CodeUnit → Prop) {flag : Features → Bool}
    (counts : Features.IsFlag flag) {start : Nat}
    (shown : ∀ before construct after, constructs = before ++ construct :: after →
      (flag construct.features ↔ Shows (start + (sourceAll before).length) construct.source)) :
    flag (featuresAll constructs) ↔
      ∃ unit ∈ traceAll start constructs, Shows unit.start unit.source := by
  rw [featuresAll_iff counts]
  apply Iff.intro
  · intro found
    obtain ⟨construct, member, used⟩ := found
    obtain ⟨before, after, same⟩ := List.append_of_mem member
    have something : construct.value ≠ .nothing := by
      intro nothing
      rw [features_of_nothing nothing, counts.1] at used
      contradiction
    obtain ⟨unit, given, begins, source⟩ :=
      exists_mem_trace something (start + (sourceAll before).length)
    refine ⟨unit, mem_traceAll.2 ⟨before, construct, after, same, given⟩, ?_⟩
    rw [begins, source]
    exact (shown before construct after same).1 used
  · intro found
    obtain ⟨unit, member, form⟩ := found
    obtain ⟨before, construct, after, same, -, begins, source⟩ := exists_of_mem_traceAll member
    rw [begins, source] at form
    have inside : construct ∈ constructs := by simp [same]
    exact ⟨construct, inside, (shown before construct after same).2 form⟩

end Construct

namespace StringLiteral

structure ExactFeatures (text : List CodeUnit) (literal : StringLiteral) : Prop where
  codePointEscape : literal.features.codePointEscape ↔
    ∃ unit ∈ literal.units, [.backslash, 0x75, .openBrace] <+: unit.source
  lineTerminator : literal.features.lineTerminator ↔
    ∃ unit ∈ literal.units,
      unit.source = [.lineSeparator] ∨ unit.source = [.paragraphSeparator]
  octalEscape : literal.features.octalEscape ↔
    ∃ unit ∈ literal.units, IsLegacySource text[unit.start + 2]? unit.source
  bits : ∀ place, literal.features.bits.testBit place =
    [literal.features.codePointEscape, literal.features.lineTerminator,
      literal.features.octalEscape].getD place false

/-- A literal reports the features that its units show, and no others. -/
theorem features_exact {text : List CodeUnit} {literal : StringLiteral}
    (read : parse text = .ok literal) : ExactFeatures text literal := by
  obtain ⟨written, spelled⟩ := parse_eq_ok_iff.1 read
  refine ⟨?_, ?_, ?_, literal.features.testBit_bits⟩
  · exact Construct.flag_iff (fun _ source => [.backslash, 0x75, .openBrace] <+: source)
      Features.isFlag_codePointEscape fun _ _ _ _ => Construct.codePointEscape_iff
  · exact Construct.flag_iff
      (fun _ source => source = [.lineSeparator] ∨ source = [.paragraphSeparator])
      Features.isFlag_lineTerminator fun _ _ _ _ => Construct.lineTerminator_iff
  · refine Construct.flag_iff (fun start source => IsLegacySource text[start + 2]? source)
      Features.isFlag_octalEscape fun before construct after same => ?_
    rw [same] at spelled
    have admitted := (Construct.spelled_append_iff.1 spelled).2.1
    refine (Construct.isLegacySource_iff admitted).trans (isLegacySource_congr fun lone => ?_)
    have next := Construct.getElem?_after literal.quote.unit before construct after
      [literal.quote.unit]
    have width : construct.width = 2 := by rw [Construct.width, lone]; rfl
    rw [width, ← same] at next
    rw [written]
    exact next.symm

/-- A literal of every source that may use a feature: a zero before an eight and one before a
letter, a braced escape, a separator and an escaped separator. -/
def featured : List CodeUnit :=
  [.doubleQuote, .backslash, 0x30, 0x38, .backslash, 0x30, 0x61, .backslash, 0x75, .openBrace, 0x41,
    .closeBrace, .lineSeparator, .backslash, .lineSeparator, .doubleQuote]

theorem features_exact_featured :
    ∃ literal, parse featured = .ok literal ∧ literal.features.bits = 7 ∧
      ExactFeatures featured literal :=
  ⟨_, rfl, rfl, @features_exact featured _ rfl⟩

end StringLiteral

end Unquote
