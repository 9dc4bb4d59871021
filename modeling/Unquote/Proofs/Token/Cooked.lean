import Unquote.Proofs.Body.Surrogate
import Unquote.Proofs.Token.Feature

/-! The value of a token as text. Surrogates of a value can come apart only where an escape spells
one of them alone. Without such an escape the value is well-formed, and decoding it loses nothing:
every supplementary character of the source is one character of the value again, though a backslash
may stand before its first half. -/

namespace Unquote

open Utf16

theorem HexDigit.unit_inj {digit other : HexDigit} (same : digit.unit = other.unit) :
    digit = other := by
  cases digit
  cases other
  cases same
  rfl

theorem HexDigit.units_inj {digits others : List HexDigit}
    (same : digits.map (·.unit) = others.map (·.unit)) : digits = others :=
  (List.map_inj_right fun _ _ => HexDigit.unit_inj).1 same

theorem Opening.unit_plain (opening : Opening) : opening.unit.isSurrogate = false := by
  cases opening <;> rfl

theorem Quote.unit_plain (quote : Quote) : quote.unit.isSurrogate = false := by
  cases quote <;> rfl

theorem Closing.units_ne_nil (closing : Closing) : closing.units ≠ [] := by
  cases closing <;> exact List.cons_ne_nil _ _

theorem Closing.units_plain (closing : Closing) : Plain closing.units := by
  cases closing <;> decide

theorem Construct.value_of_braced {construct : Construct} {digits : List HexDigit}
    (written : construct.source =
      .backslash :: 0x75 :: .openBrace :: digits.map (·.unit) ++ [.closeBrace]) :
    construct.value = .ofCodePoint (HexDigit.number digits) ∧
      HexDigit.number digits ≤ maxCodePoint := by
  have announced : construct.features.codePointEscape := by
    rw [codePointEscape_iff, written]
    exact ⟨_, rfl⟩
  obtain ⟨others, nonempty, inRange, rfl⟩ : ∃ others nonempty inRange,
      construct = .escape (.codePoint others nonempty inRange) := by
    cases construct with
    | raw unit =>
      rw [raw_features_cases] at announced
      split at announced <;> contradiction
    | crlf => contradiction
    | escape inner =>
      cases inner with
      | codePoint others nonempty inRange => exact ⟨others, nonempty, inRange, rfl⟩
      | _ => contradiction
  have spelled : others.map (·.unit) = digits.map (·.unit) :=
    List.append_cancel_right (List.cons.inj (List.cons.inj (List.cons.inj written).2).2).2
  rw [← HexDigit.units_inj spelled]
  exact ⟨rfl, inRange⟩

theorem Construct.trace_of_braced {construct : Construct} {digits : List HexDigit}
    (written : construct.source =
      .backslash :: 0x75 :: .openBrace :: digits.map (·.unit) ++ [.closeBrace])
    (wide : 0xFFFF < HexDigit.number digits) (start : Nat) :
    construct.trace start =
      [⟨highHalf (HexDigit.number digits), start, construct.source, some .high⟩,
        ⟨lowHalf (HexDigit.number digits), start, construct.source, some .low⟩] := by
  rw [trace, (value_of_braced written).1, Decoded.ofCodePoint, if_neg (Nat.not_le_of_lt wide)]
  rfl

namespace Token

def cooked : Token → String
  | string literal => literal.cooked
  | template inner => inner.cooked

theorem cooked_eq (token : Token) : token.cooked = decodeLossy (token.units.map (·.code)) := by
  cases token <;> rfl

theorem opening_plain (token : Token) : token.opening.isSurrogate = false := by
  cases token with
  | string literal => exact literal.quote.unit_plain
  | template inner => exact inner.opening.unit_plain

theorem closing_plain (token : Token) : Plain token.closing := by
  cases token with
  | string literal => exact plain_cons.2 ⟨literal.quote.unit_plain, plain_nil⟩
  | template inner => exact inner.closing.units_plain

theorem closing_ne_nil (token : Token) : token.closing ≠ [] := by
  cases token with
  | string literal => exact List.cons_ne_nil _ _
  | template inner => exact inner.closing.units_ne_nil

/-- Two units that follow each other and stand for one character, which the value shows whole. -/
structure Shows (token : Token) (char : Char) (front : List TracedUnit) (high low : TracedUnit)
    (back : List TracedUnit) : Prop where
  units : token.units = front ++ high :: low :: back
  high_code : high.code = highHalf char.toNat
  low_code : low.code = lowHalf char.toNat
  cooked : token.cooked = decodeLossy (front.map (·.code)) ++ String.singleton char ++
    decodeLossy (back.map (·.code))

/-- A character that stands in the token itself, after a backslash or not, and has its second half
at `place`. -/
def ShowsWritten (token : Token) (char : Char) (place : Nat) : Prop :=
  ∃ front high low back, token.Shows char front high low back ∧
    (high.source = [highHalf char.toNat] ∨ high.source = [.backslash, highHalf char.toNat]) ∧
    high.stop = place ∧ low.start = place ∧ low.source = [lowHalf char.toNat]

/-- What the value of a token keeps of the text that the token was read from. -/
structure Lossless (text : String) (token : Token) : Prop where
  wellFormed : WellFormed (token.units.map (·.code))
  encode_cooked : encode token.cooked = token.units.map (·.code)
  /-- Every character of the text that takes two units is one of the value. -/
  written : ∀ before char after, text.toList = before ++ char :: after → 0xFFFF < char.toNat →
    token.ShowsWritten char ((encodeChars before).length + 1)
  /-- So is one that is written by its number. -/
  numbered : ∀ unit ∈ token.units, ∀ digits : List HexDigit,
    unit.source = .backslash :: 0x75 :: .openBrace :: digits.map (·.unit) ++ [.closeBrace] →
      0xFFFF < HexDigit.number digits →
        ∃ char front high low back, char.toNat = HexDigit.number digits ∧
          token.Shows char front high low back ∧ (unit = high ∨ unit = low)
  replaced : token.cooked.toList.count replacement = (token.units.map (·.code)).count 0xFFFD

variable {kind : TokenKind} {text : String} {token : Token}

theorem shows_of_units {char : Char} (wide : 0xFFFF < char.toNat) {front back : List TracedUnit}
    {high low : TracedUnit} (units : token.units = front ++ high :: low :: back)
    (first : high.code = highHalf char.toNat) (second : low.code = lowHalf char.toNat) :
    token.Shows char front high low back := by
  refine ⟨units, first, second, ?_⟩
  rw [cooked_eq, units, List.map_append, List.map_cons, List.map_cons, first, second,
    decodeLossy_halves wide]

theorem run_body (read : parse kind (encode text) = .ok token) :
    Place.run .between (Construct.sourceAll token.constructs) = some .between := by
  have ran := wellFormed_iff_run.1 (wellFormed_encodeChars text.toList)
  have split : encodeChars text.toList = _ := eq_of_parse read
  rw [split, List.cons_append, Place.run_cons, Place.step_between token.opening_plain,
    Option.bind_some, Place.run_append, Option.bind_eq_some_iff] at ran
  obtain ⟨place, body, rest⟩ := ran
  obtain ⟨rfl, -⟩ := (Place.run_plain_iff token.closing_plain token.closing_ne_nil).1 rest
  exact body

theorem wellFormed_codes (read : parse kind (encode text) = .ok token)
    (whole : ∀ unit ∈ token.units, ¬unit.SpellsHalf) :
    WellFormed (token.units.map (·.code)) := by
  rw [units_eq] at whole ⊢
  exact wellFormed_iff_run.2 (Construct.run_values whole (run_body read))

/-- The halves of a character lie inside a token, since no delimiter is a surrogate. -/
theorem exists_inside {units left right : List CodeUnit} {high low : CodeUnit}
    (read : parse kind units = .ok token) (first : high.isSurrogate) (second : low.isSurrogate)
    (split : units = left ++ high :: low :: right) :
    ∃ lead trail, left = token.opening :: lead ∧
      Construct.sourceAll token.constructs = lead ++ high :: low :: trail := by
  have whole := eq_of_parse read
  rw [split] at whole
  cases left with
  | nil =>
    obtain ⟨rfl, -⟩ := List.cons.inj whole
    rw [token.opening_plain] at first
    contradiction
  | cons unit lead =>
    obtain ⟨rfl, rest⟩ := List.cons.inj whole
    have outside : low ∉ token.closing := by
      intro member
      rw [token.closing_plain low member] at second
      contradiction
    have parted : (lead ++ [high]) ++ low :: right =
        Construct.sourceAll token.constructs ++ token.closing := by
      rw [List.append_assoc]
      exact rest
    rcases List.append_eq_append_iff.1 parted with ⟨more, body, ends⟩ | ⟨more, -, ends⟩
    · cases more with
      | nil =>
        have closed : low :: right = token.closing := ends
        exact absurd (closed ▸ List.mem_cons_self) outside
      | cons unit trail =>
        obtain ⟨rfl, -⟩ := List.cons.inj ends
        rw [List.append_assoc] at body
        exact ⟨lead, trail, rfl, body⟩
    · exact absurd (ends ▸ List.mem_append_right more List.mem_cons_self) outside

theorem showsWritten_of_wide (read : parse kind (encode text) = .ok token)
    {before after : List Char} {char : Char} (split : text.toList = before ++ char :: after)
    (wide : 0xFFFF < char.toNat) :
    token.ShowsWritten char ((encodeChars before).length + 1) := by
  have first : (highHalf char.toNat).isSurrogate := by
    rw [CodeUnit.isSurrogate_eq, highHalf_isHighSurrogate (toNat_le char), Bool.true_or]
  have second : (lowHalf char.toNat).isSurrogate := by
    rw [CodeUnit.isSurrogate_eq, lowHalf_isLowSurrogate, Bool.or_true]
  have parted : encode text = encodeChars before ++
      highHalf char.toNat :: lowHalf char.toNat :: encodeChars after := by
    rw [encode, split, encodeChars_append, encodeChars_cons, encodeCodePoint,
      if_neg (Nat.not_le_of_lt wide)]
    rfl
  obtain ⟨lead, trail, begins, body⟩ := exists_inside read first second parted
  obtain ⟨front, construct, back, constructs, stands, place⟩ :=
    Construct.exists_halves first second body
  have units := token.units_eq
  rw [constructs, Construct.traceAll_append, Construct.traceAll_cons, Construct.traceAll_cons,
    stands.trace_eq] at units
  have stop : 1 + (Construct.sourceAll front).length + construct.width =
      (encodeChars before).length + 1 := by
    rw [begins, List.length_cons, Nat.add_assoc, place]
    omega
  exact ⟨_, _, _, _, shows_of_units wide units rfl rfl, stands.source_cases, stop, stop, rfl⟩

theorem exists_shows_numbered {unit : TracedUnit} (member : unit ∈ token.units)
    {digits : List HexDigit} (written : unit.source =
      .backslash :: 0x75 :: .openBrace :: digits.map (·.unit) ++ [.closeBrace])
    (wide : 0xFFFF < HexDigit.number digits) :
    ∃ char front high low back, char.toNat = HexDigit.number digits ∧
      token.Shows char front high low back ∧ (unit = high ∨ unit = low) := by
  obtain ⟨before, construct, after, split, given, -, source, front, back, units⟩ :=
    exists_construct member
  rw [source] at written
  have inRange := (Construct.value_of_braced written).2
  have same : (Char.ofNat (HexDigit.number digits)).toNat = HexDigit.number digits :=
    toNat_ofNat (by unfold Nat.isValidChar maxCodePoint at *; omega)
  rw [Construct.trace_of_braced written wide] at given units
  rw [← same] at given units wide
  refine ⟨.ofNat (HexDigit.number digits), _, _, _, _, same, shows_of_units wide units rfl rfl, ?_⟩
  exact (List.mem_cons.1 given).imp_right List.mem_singleton.1

/-- Nothing of a text is lost in a value in which no escape spells a surrogate on its own. -/
theorem cooked_lossless (read : parse kind (encode text) = .ok token)
    (whole : ∀ unit ∈ token.units, ¬unit.SpellsHalf) : Lossless text token := by
  have formed := wellFormed_codes read whole
  have kept : encode token.cooked = token.units.map (·.code) := by
    rw [cooked_eq, encode_decodeLossy formed]
  refine ⟨formed, kept, ?_, ?_, ?_⟩
  · exact fun before char after split wide => showsWritten_of_wide read split wide
  · exact fun unit member digits written wide => exists_shows_numbered member written wide
  · rw [← kept, encode, count_encodeChars]

def threeFaces : String :=
  .ofList ['\"', .ofNat 0x1F600, '\\', .ofNat 0x1F600, '\\', 'u', '\x7b', '1', 'F', '6', '0', '0',
    '\x7d', '\"']

theorem cooked_lossless_threeFaces :
    ∃ token, parse .string (encode threeFaces) = .ok token ∧
      (∀ unit ∈ token.units, ¬unit.SpellsHalf) ∧ Lossless threeFaces token := by
  have units : encode threeFaces = [.doubleQuote, 0xD83D, 0xDE00, .backslash, 0xD83D, 0xDE00,
      .backslash, 0x75, .openBrace, 0x31, 0x46, 0x36, 0x30, 0x30, .closeBrace, .doubleQuote] := by
    refine (encode_ofList _).trans ?_
    decide +kernel
  obtain ⟨token, read, whole⟩ : ∃ token, parse .string (encode threeFaces) = .ok token ∧
      ∀ unit ∈ token.units, ¬unit.SpellsHalf := by
    rw [units]
    exact ⟨_, rfl, by decide⟩
  exact ⟨token, read, whole, cooked_lossless read whole⟩

end Token

end Unquote
