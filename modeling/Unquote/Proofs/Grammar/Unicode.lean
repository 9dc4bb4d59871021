import Unquote.Proofs.Checked.Escape
import Unquote.Proofs.Grammar.Item
import Unquote.Proofs.Text.WellFormed

/-! Unicode escapes, told by the units after their letter. Those begin with a code point in braces,
of however many digits, or with four digits, or else there is no escape. The number in braces is built
in a word that is held at its largest value, and that decides as the number itself would. -/

namespace Unquote.Grammar

/-- Units that begin with a code point in braces. A brace is no digit, so the digits are all those
that come after the first brace. -/
structure BeginsBraced (digits : List HexDigit) (units : List CodeUnit) : Prop where
  nonempty : digits ≠ []
  inRange : numeral 16 (digits.map (·.value)) ≤ 0x10FFFF
  written : .openBrace :: digits.map (·.unit) ++ [.closeBrace] <+: units

structure BeginsFour (digits : List HexDigit) (units : List CodeUnit) : Prop where
  count : digits.length = 4
  written : digits.map (·.unit) <+: units

/-- Whether a value is the encoding of a code point: the unit of the same number, or the two halves
that the number is put together from. -/
def Encodes (codePoint : Nat) : Decoded → Prop
  | .nothing => False
  | .unit code => code.toNat = codePoint
  | .pair high low =>
    high.isHighSurrogate ∧ low.isLowSurrogate ∧ Utf16.joinHalves high low = codePoint

theorem encodes_ofCodePoint {codePoint : Nat} (below : codePoint ≤ 0x10FFFF) :
    Encodes codePoint (.ofCodePoint codePoint) := by
  unfold Decoded.ofCodePoint
  split
  next single =>
    show (UInt16.ofNat codePoint).toNat = codePoint
    rw [UInt16.toNat_ofNat']
    omega
  next wide =>
    have above : 0x10000 ≤ codePoint := by omega
    exact ⟨Utf16.highHalf_isHighSurrogate below, Utf16.lowHalf_isLowSurrogate codePoint,
      Utf16.joinHalves_halves above below⟩

section

variable {digits : List HexDigit} {units : List CodeUnit}

theorem BeginsBraced.run_eq (begins : BeginsBraced digits units) :
    HexDigit.run units.tail = digits := by
  obtain ⟨more, rfl⟩ := begins.written
  show HexDigit.run (digits.map (·.unit) ++ [CodeUnit.closeBrace] ++ more) = digits
  rw [List.append_assoc]
  exact HexDigit.run_append rfl digits

theorem BeginsFour.exists_digits (begins : BeginsFour digits units) :
    ∃ first second third fourth more, digits = [first, second, third, fourth] ∧
      units = first.unit :: second.unit :: third.unit :: fourth.unit :: more := by
  obtain ⟨count, more, written⟩ := begins
  match digits, count with
  | [first, second, third, fourth], _ =>
    exact ⟨first, second, third, fourth, more, rfl, written.symm⟩

theorem exists_begins {escape : Escape} (found : Escape.readUnicode? units = some escape) :
    ∃ digits, BeginsBraced digits units ∨ BeginsFour digits units := by
  cases units with
  | nil => contradiction
  | cons first rest =>
    rw [Escape.readUnicode?] at found
    split at found
    next brace =>
      obtain ⟨digits, nonempty, inRange, more, rfl, -⟩ := Escape.readBraced?_eq_some found
      rw [number_eq_numeral] at inRange
      refine ⟨digits, Or.inl ⟨nonempty, inRange, more, ?_⟩⟩
      simp [brace]
    next =>
      obtain ⟨one, two, three, four, more, same, -⟩ := Escape.readFour?_eq_some found
      exact ⟨[one, two, three, four], Or.inr ⟨rfl, more, same.symm⟩⟩

variable {legacy : Legacy} {reader : Reader}

theorem decode_braced (here : reader.rest = 0x75 :: units) (begins : BeginsBraced digits units) :
    reader.decode legacy = (.ok (.ofCodePoint (numeral 16 (digits.map (·.value)))), { reader with
      pos := reader.pos + (digits.length + 3),
      features := reader.features ∪ .ofCodePointEscape }) := by
  obtain ⟨nonempty, inRange, more, written⟩ := begins
  rw [← number_eq_numeral] at inRange ⊢
  let escape := Escape.codePoint digits nonempty inRange
  have split : reader.rest = escape.body ++ more := by
    rw [here, ← written]
    rfl
  have width : escape.body.length = digits.length + 3 := by
    simp [escape, Escape.body]
  have found : Escape.read? reader.rest = some escape :=
    Escape.read?_eq_some_iff.2 ⟨more, split, trivial⟩
  rw [Reader.decode_of_read found (legacy.permits_modern rfl), Reader.succeed, width]
  rfl

theorem decode_four (here : reader.rest = 0x75 :: units) (begins : BeginsFour digits units) :
    reader.decode legacy =
      (.ok (.unit (.ofNat (numeral 16 (digits.map (·.value))))), reader.advance 5) := by
  obtain ⟨first, second, third, fourth, more, rfl, rfl⟩ := begins.exists_digits
  have found : Escape.read? reader.rest = some (.unicode first second third fourth) :=
    Escape.read?_eq_some_iff.2 ⟨more, here, trivial⟩
  rw [Reader.decode_of_read found (legacy.permits_modern rfl), Reader.succeed_of_unnoted rfl,
    ← number_eq_numeral]
  rfl

theorem decode_neither (here : reader.rest = 0x75 :: units)
    (neither : ∀ digits, ¬BeginsBraced digits units ∧ ¬BeginsFour digits units) :
    reader.decode legacy = (.error ⟨.invalidEscape, reader.offset⟩, reader.advance 1) := by
  have reading : Escape.read? reader.rest = Escape.readUnicode? units := by
    rw [here]
    rfl
  have unread : Escape.readUnicode? units = none := by
    cases found : Escape.readUnicode? units with
    | none => rfl
    | some escape =>
      obtain ⟨digits, braced | four⟩ := exists_begins found
      · exact absurd braced (neither digits).1
      · exact absurd four (neither digits).2
  rw [Reader.decode_of_other here rfl, reading, unread]
  rfl

end

/-- What comes of an escape at its letter, which `units` follow. -/
structure Decided (legacy : Legacy) (reader : Reader) (units : List CodeUnit) : Prop where
  succeeds : (∃ decoded, (reader.decode legacy).1 = .ok decoded) ↔
    ∃ digits, BeginsBraced digits units ∨ BeginsFour digits units
  longest : ∀ digits, BeginsBraced digits units → HexDigit.run units.tail = digits
  /-- The letter, the digits and the braces are passed, and a code point escape is noted. -/
  braced : ∀ digits, BeginsBraced digits units → ∃ decoded,
    Encodes (numeral 16 (digits.map (·.value))) decoded ∧
      reader.decode legacy = (.ok decoded, { reader with
        pos := reader.pos + (digits.length + 3),
        features := reader.features ∪ .ofCodePointEscape })
  /-- The letter and the digits are passed. -/
  four : ∀ digits, BeginsFour digits units → ∃ code : CodeUnit,
    code.toNat = numeral 16 (digits.map (·.value)) ∧
      reader.decode legacy = (.ok (.unit code), reader.advance 5)
  /-- The letter is passed, and the fault lies at it. -/
  otherwise : (∀ digits, ¬BeginsBraced digits units ∧ ¬BeginsFour digits units) →
    reader.decode legacy = (.error ⟨.invalidEscape, reader.offset⟩, reader.advance 1)
  place : reader.pos < UInt32.size → reader.offset = reader.pos
  /-- Words of sixteen and thirty-two bits come to the same. -/
  checked : Checked.decode legacy reader = .ok (reader.decode legacy)

theorem numeral_four_lt (first second third fourth : HexDigit) :
    numeral 16 ([first, second, third, fourth].map (·.value)) < 0x10000 := by
  have one := first.value_lt
  have two := second.value_lt
  have three := third.value_lt
  have four := fourth.value_lt
  simp only [List.map_cons, List.map_nil, numeral, List.length_cons, List.length_nil]
  omega

/-- Whether there is a Unicode escape is decided by the number of its digits, however many. -/
theorem unicode_decided (legacy : Legacy) {reader : Reader} {units : List CodeUnit}
    (here : reader.rest = 0x75 :: units) (after : 0 < reader.pos) :
    Decided legacy reader units where
  succeeds := by
    apply Iff.intro
    · rintro ⟨decoded, read⟩
      apply Classical.byContradiction
      intro absent
      have neither : ∀ digits, ¬BeginsBraced digits units ∧ ¬BeginsFour digits units :=
        fun digits => not_or.1 fun begins => absent ⟨digits, begins⟩
      rw [decode_neither here neither] at read
      contradiction
    · rintro ⟨digits, braced | four⟩
      · exact ⟨_, congrArg Prod.fst (decode_braced here braced)⟩
      · exact ⟨_, congrArg Prod.fst (decode_four here four)⟩
  longest _ begins := begins.run_eq
  braced _ begins := ⟨_, encodes_ofCodePoint begins.inRange, decode_braced here begins⟩
  four digits begins := by
    refine ⟨_, ?_, decode_four here begins⟩
    obtain ⟨first, second, third, fourth, more, rfl, -⟩ := begins.exists_digits
    rw [UInt16.toNat_ofNat']
    exact Nat.mod_eq_of_lt (numeral_four_lt first second third fourth)
  otherwise := decode_neither here
  place := Reader.offset_eq_pos
  checked := Checked.decode_eq legacy after

/-- A reader after a backslash, at a number of nine digits in braces that is 0x41 in thirty-two
bits. -/
def overlong : Reader :=
  ⟨[.backslash, 0x75, .openBrace, 0x31, 0x30, 0x30, 0x30, 0x30, 0x30, 0x30, 0x34, 0x31,
    .closeBrace], 1, .empty, []⟩

/-- The number does not fall back into the range of code points. -/
theorem unicode_decided_overlong :
    overlong.rest = 0x75 :: overlong.text.drop 2 ∧ 0 < overlong.pos ∧
      Decided .allowed overlong (overlong.text.drop 2) ∧
      overlong.decode .allowed = (.error ⟨.invalidEscape, 1⟩, overlong.advance 1) :=
  ⟨rfl, by decide, unicode_decided .allowed rfl (by decide), rfl⟩

end Unquote.Grammar
