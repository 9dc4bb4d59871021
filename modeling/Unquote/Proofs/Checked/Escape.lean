import Unquote.Proofs.Checked.Number
import Unquote.Proofs.Escape.Decode

/-! An escape that is read with checked operations is read as it is without them: no operation on
the way traps. The digits have been counted before they are cut out of the text, and the unit that
announces an escape has been passed before its place is asked for. -/

namespace Unquote

theorem OctalDigit.map_unit_run (room : Nat) (units : List CodeUnit) :
    (run room units).map unit = (units.take room).takeWhile (·.isOctalDigit) := by
  have digits : ∀ unit ∈ (units.take room).takeWhile (·.isOctalDigit), unit.isOctalDigit :=
    fun unit member => List.all_eq_true.1 List.all_takeWhile unit member
  unfold run
  generalize (units.take room).takeWhile (·.isOctalDigit) = taken at digits
  induction taken with
  | nil => rfl
  | cons first rest ih =>
    have octal : (ofUnit? first).isSome := by
      rw [isSome_ofUnit?]
      exact digits first List.mem_cons_self
    obtain ⟨digit, found⟩ := Option.isSome_iff_exists.1 octal
    rw [List.filterMap_cons_some found, List.map_cons, unit_of_ofUnit? found,
      ih fun unit member => digits unit (List.mem_cons_of_mem _ member)]

namespace Checked

variable {reader : Reader} {legacy : Legacy} {unit : CodeUnit} {more : List CodeUnit}

theorem sub_passed (reader : Reader) : sub (reader.advance 1).pos 1 = .ok reader.pos :=
  sub_eq (Nat.le_add_left 1 reader.pos)

theorem hexNumber?_few {units : List CodeUnit} (few : units.length ≤ 4) :
    hexNumber? 0 units = .ok ((units.mapM HexDigit.ofUnit?).map HexDigit.number) := by
  apply hexNumber?_eq
  rw [Nat.zero_add, Nat.one_mul]
  exact Nat.pow_le_pow_right (by decide) few

theorem hexDigits_of_digits (digits : List HexDigit) (few : digits.length ≤ 4)
    (here : (reader.advance 1).rest = digits.map (·.unit) ++ more) :
    hexDigits digits.length (reader.advance 1) =
      .ok (.ok (.unit (.ofNat (HexDigit.number digits))),
        (reader.advance 1).advance digits.length) := by
  have width : (digits.map (·.unit)).length = digits.length := List.length_map _
  have enough : ¬(reader.advance 1).rest.length < digits.length := by
    rw [here, List.length_append]
    omega
  have front : (reader.advance 1).rest.take digits.length = digits.map (·.unit) := by
    rw [here, List.take_left' width]
  rw [hexDigits, sub_passed, ok_bind, if_neg enough, front, hexNumber?_few (by omega),
    HexDigit.mapM_map_unit]
  rfl

theorem hexDigits_of_none {count : Nat} (few : count ≤ 4)
    (absent : ∀ (digits : List HexDigit) (more : List CodeUnit), digits.length = count →
      (reader.advance 1).rest ≠ digits.map (·.unit) ++ more) :
    hexDigits count (reader.advance 1) = .ok reader.fail := by
  rw [hexDigits, sub_passed, ok_bind]
  split
  next => rfl
  next enough =>
    have width : ((reader.advance 1).rest.take count).length = count := by
      rw [List.length_take]
      omega
    rw [hexNumber?_few (by omega), ok_bind]
    cases found : ((reader.advance 1).rest.take count).mapM HexDigit.ofUnit? with
    | none => rfl
    | some digits =>
      have front := HexDigit.map_unit_of_mapM found
      refine absurd ?_ (absent digits ((reader.advance 1).rest.drop count) ?_)
      · rw [front, List.take_append_drop]
      · rw [← width, ← front, List.length_map]

theorem hexDigits_two (reader : Reader) :
    hexDigits 2 (reader.advance 1) =
      .ok (reader.answer (Escape.readHex? (reader.advance 1).rest)) := by
  cases read : Escape.readHex? (reader.advance 1).rest with
  | none =>
    refine hexDigits_of_none (by decide) fun digits more count here => ?_
    match digits, count with
    | [high, low], _ =>
      rw [here] at read
      cases read.symm.trans (Escape.readHex?_append high low more)
  | some escape =>
    obtain ⟨high, low, more, here, rfl⟩ := Escape.readHex?_eq_some read
    rw [Reader.answer, Reader.succeed_of_unnoted rfl]
    exact hexDigits_of_digits [high, low] (by simp) here

theorem hexDigits_four (reader : Reader) :
    hexDigits 4 (reader.advance 1) =
      .ok (reader.answer (Escape.readFour? (reader.advance 1).rest)) := by
  cases read : Escape.readFour? (reader.advance 1).rest with
  | none =>
    refine hexDigits_of_none (by decide) fun digits more count here => ?_
    match digits, count with
    | [first, second, third, fourth], _ =>
      rw [here] at read
      cases read.symm.trans (Escape.readFour?_append first second third fourth more)
  | some escape =>
    obtain ⟨first, second, third, fourth, more, here, rfl⟩ := Escape.readFour?_eq_some read
    rw [Reader.answer, Reader.succeed_of_unnoted rfl]
    exact hexDigits_of_digits [first, second, third, fourth] (Nat.le_refl 4) here

theorem braced?_eq (units : List CodeUnit) :
    braced? units = .ok (
      if units.head? ≠ some .openBrace then none
      else if HexDigit.run units.tail = [] ∨
          (units.tail.drop (HexDigit.run units.tail).length).head? ≠ some .closeBrace then none
      else some (saturate (HexDigit.number (HexDigit.run units.tail)),
        (HexDigit.run units.tail).length + 2)) := by
  unfold braced?
  split
  next => rfl
  next =>
    have number := HexDigit.numberUpTo_eq (UInt32.size - 1) (HexDigit.run units.tail)
    rw [HexDigit.numberUpTo, Nat.min_comm] at number
    rw [digitRun_eq, ok_bind, number]
    simp only [Nat.zero_add, List.length_eq_zero_iff, List.head?_drop, saturate]
    split <;> rfl

/-- A brace is no digit, so what is no number between braces is not the form of four digits. -/
theorem readFour?_of_brace (units : List CodeUnit) :
    Escape.readFour? (.openBrace :: units) = none := by
  cases read : Escape.readFour? (.openBrace :: units) with
  | none => rfl
  | some escape =>
    obtain ⟨first, second, third, fourth, rest, split, -⟩ := Escape.readFour?_eq_some read
    have isHex := first.isHex
    rw [← (List.cons.inj split).1] at isHex
    contradiction

/-- Between braces there is either no number, or one that the word holds if it is a code point. -/
theorem braced?_cases (units : List CodeUnit) :
    (braced? (.openBrace :: units) = .ok none ∧ Escape.readBraced? units = none) ∨
      ∃ number width, braced? (.openBrace :: units) = .ok (some (number, width)) ∧
        (maxCodePoint < number ∧ Escape.readBraced? units = none ∨
          ∃ digits nonempty inRange,
            number = HexDigit.number digits ∧ width = digits.length + 2 ∧
              Escape.readBraced? units = some (.codePoint digits nonempty inRange)) := by
  have present : ¬(CodeUnit.openBrace :: units).head? ≠ some .openBrace := Decidable.not_not.2 rfl
  rw [braced?_eq, if_neg present, List.tail_cons]
  unfold Escape.readBraced?
  by_cases nonempty : HexDigit.run units = []
  · exact Or.inl ⟨congrArg _ (if_pos (Or.inl nonempty)), dif_pos nonempty⟩
  · by_cases unclosed : (units.drop (HexDigit.run units).length).head? ≠ some .closeBrace
    · refine Or.inl ⟨congrArg _ (if_pos (Or.inr unclosed)), ?_⟩
      rw [dif_neg nonempty, if_pos unclosed]
    · refine Or.inr ⟨_, _, congrArg _ (if_neg (not_or.2 ⟨nonempty, unclosed⟩)), ?_⟩
      have same : HexDigit.numberUpTo (maxCodePoint + 1) (HexDigit.run units) ≤ maxCodePoint ↔
          HexDigit.number (HexDigit.run units) ≤ maxCodePoint := by
        rw [HexDigit.numberUpTo_eq]
        omega
      rw [dif_neg nonempty, if_neg unclosed]
      by_cases inRange : HexDigit.number (HexDigit.run units) ≤ maxCodePoint
      · have held : HexDigit.number (HexDigit.run units) ≤ UInt32.size - 1 :=
          Nat.le_trans inRange (by decide)
        exact Or.inr ⟨_, nonempty, inRange, Nat.min_eq_left held, rfl, dif_pos (same.2 inRange)⟩
      · have large := mt same.1 inRange
        exact Or.inl ⟨Nat.lt_min.2 ⟨Nat.lt_of_not_le inRange, by decide⟩, dif_neg large⟩

theorem unicode_eq (reader : Reader) :
    unicode (reader.advance 1) =
      .ok (reader.answer (Escape.readUnicode? (reader.advance 1).rest)) := by
  have four := hexDigits_four reader
  rw [unicode, sub_passed, ok_bind]
  cases units : (reader.advance 1).rest with
  | nil =>
    rw [units] at four
    exact four
  | cons first rest =>
    rw [units] at four
    by_cases brace : first = .openBrace
    · subst brace
      -- The form of four digits is tried after the braces, and it cannot succeed there.
      rw [readFour?_of_brace] at four
      rw [Escape.readUnicode?, if_pos rfl]
      obtain ⟨braced, read⟩ | ⟨number, width, braced, large | spelled⟩ := braced?_cases rest
      · rw [braced, read]
        exact four
      · rw [braced, large.2, ok_bind]
        exact if_pos large.1
      · obtain ⟨digits, nonempty, inRange, rfl, rfl, read⟩ := spelled
        simp only [braced, read, ok_bind, if_neg (Nat.not_lt.2 inRange), splitCodePoint_eq inRange]
        have width : reader.pos + (Escape.codePoint digits nonempty inRange).body.length =
            reader.pos + 1 + (digits.length + 2) := by
          simp only [Escape.body, List.cons_append, List.length_cons, List.length_append,
            List.length_map, List.length_nil]
          omega
        simp only [Reader.answer, Reader.succeed, width]
        rfl
    · have other : (first :: rest).head? ≠ some .openBrace := by
        intro same
        exact brace (Option.some.inj same)
      rw [braced?_eq, ok_bind, if_pos other, Escape.readUnicode?, if_neg brace]
      exact four

theorem octal_refused (limit : Nat) (reader : Reader) :
    octal .refused limit (reader.advance 1) =
      .ok (.error (invalid reader.pos), { reader.advance 1 with
        features := reader.features ∪ .ofOctalEscape }) := by
  rw [octal, sub_passed]
  rfl

theorem slice_near (room : Nat) (here : reader.rest = unit :: more) :
    slice reader.text reader.pos
      (min (reader.pos + (room + 1)) (reader.pos + 1 + more.length)) =
        .ok (unit :: more.take room) := by
  have length : reader.text.length - reader.pos = more.length + 1 := by
    rw [← List.length_drop, ← Reader.rest, here, List.length_cons]
  have width : min (reader.pos + (room + 1)) (reader.pos + 1 + more.length) - reader.pos =
      min room more.length + 1 := by
    omega
  rw [slice_eq (by omega) (by omega), ← Reader.rest, here, width, List.take_succ_cons,
    ← List.take_eq_take_min]

theorem slice_takeWhile (holds : CodeUnit → Bool) (units : List CodeUnit) :
    slice units 0 (units.takeWhile holds).length = .ok (units.takeWhile holds) := by
  have front : units.takeWhile holds <+: units := List.takeWhile_prefix holds
  rw [slice_eq (Nat.zero_le _) front.length_le, List.drop_zero, Nat.sub_zero,
    ← List.prefix_iff_eq_take.1 front]

theorem takeWhile_near (digit : OctalDigit) (units : List CodeUnit) :
    (digit.unit :: units.take digit.room).takeWhile (·.isOctalDigit) =
      (digit :: OctalDigit.run digit.room units).map OctalDigit.unit := by
  rw [List.takeWhile_cons_of_pos (OctalDigit.unit_isOctalDigit digit), List.map_cons,
    OctalDigit.map_unit_run]

theorem room_le (digit : OctalDigit) : digit.room ≤ 2 := by
  unfold OctalDigit.room
  split <;> decide

theorem octalNumber_near (digit : OctalDigit) (units : List CodeUnit) :
    octalNumber 0 ((digit :: OctalDigit.run digit.room units).map OctalDigit.unit) =
      .ok (OctalDigit.number (digit :: OctalDigit.run digit.room units)) := by
  apply octalNumber_eq
  have few := OctalDigit.length_run_le digit.room units
  have most := room_le digit
  have three : (digit :: OctalDigit.run digit.room units).length ≤ 3 := by
    rw [List.length_cons]
    omega
  rw [Nat.zero_add, Nat.one_mul]
  exact Nat.le_trans (Nat.pow_le_pow_right (by decide) three) (by decide)

/-- The run of digits includes the first of them, which has been passed. -/
theorem octal_allowed {digit : OctalDigit} (here : reader.rest = digit.unit :: more) :
    octal .allowed (digit.room + 1) (reader.advance 1) =
      .ok (reader.succeed (.octal digit (OctalDigit.run digit.room more)
        (OctalDigit.length_run_le digit.room more))) := by
  have near := slice_near digit.room here
  have spelled := slice_takeWhile (·.isOctalDigit) (digit.unit :: more.take digit.room)
  rw [takeWhile_near] at spelled
  rw [octal, sub_passed, ok_bind, if_neg (by decide)]
  simp only [Reader.rest_advance_one here]
  rw [Reader.advance, near, ok_bind]
  simp only [takeWhile_near]
  rw [spelled, ok_bind, octalNumber_near, ok_bind, List.length_map, List.length_cons,
    sub_eq (Nat.le_add_left 1 _), ok_bind, Nat.add_sub_cancel, Reader.advance, Nat.add_assoc,
    Nat.add_comm 1, ← List.length_map OctalDigit.unit]
  rfl

theorem limit_eq (digit : OctalDigit) : (if digit.val ≤ 3 then 3 else 2) = digit.room + 1 := by
  unfold OctalDigit.room
  split <;> rfl

theorem decode_octal {digit : OctalDigit} (here : reader.rest = digit.unit :: more) :
    (if digit.val = 0 ∧ ¬more.head?.any (·.isDigit) then
        (.ok (.ok (.unit 0), reader.advance 1) : Checked (Except SyntaxError Decoded × Reader))
      else octal legacy (digit.room + 1) (reader.advance 1)) =
      .ok (reader.decode legacy) := by
  have read : Escape.read? reader.rest = some (Escape.readOctal digit more) := by
    rw [here, Escape.read?_octal]
  have zero : digit = 0 ↔ digit.val = 0 := Fin.ext_iff
  simp only [Escape.readOctal, zero] at read
  split
  next alone =>
    rw [if_pos alone] at read
    rw [Reader.decode_of_read read (legacy.permits_modern rfl), Reader.succeed_of_unnoted rfl]
    rfl
  next grouped =>
    rw [if_neg grouped] at read
    cases legacy with
    | allowed => rw [octal_allowed here, Reader.decode_of_read read fun _ => rfl]
    | refused =>
      rw [octal_refused, Reader.decode_of_refused read (Legacy.not_permits rfl)]
      rfl

theorem decode_lineBreak {first : LineBreak} (single : first ≠ .crlf)
    (here : reader.rest = first.units ++ more) :
    (if first = .carriageReturn ∧ more.head? = some .lineFeed then
        (.ok (.ok .nothing, (reader.advance 1).advance 1) :
          Checked (Except SyntaxError Decoded × Reader))
      else .ok (.ok .nothing, reader.advance 1)) =
      .ok (reader.decode legacy) := by
  have read : Escape.read? reader.rest = some (.lineContinuation (first.extend more)) := by
    rw [here]
    cases first with
    | crlf => contradiction
    | _ => rfl
  rw [Reader.decode_of_read read (legacy.permits_modern rfl), Reader.succeed_of_unnoted rfl]
  unfold LineBreak.extend
  split
  next => rfl
  next =>
    cases first with
    | crlf => contradiction
    | _ => rfl

theorem decode_eightNine {escape : Escape} (old : escape = .eight ∨ escape = .nine)
    (here : reader.rest = escape.body ++ more) :
    (if legacy = .refused then
        (.ok (.error (invalid reader.pos), reader.advance 1) :
          Checked (Except SyntaxError Decoded × Reader))
      else .ok (.ok escape.value, { reader.advance 1 with
        features := reader.features ∪ .ofOctalEscape })) =
      .ok (reader.decode legacy) := by
  have read : Escape.read? reader.rest = some escape := by
    rw [here]
    rcases old with rfl | rfl <;> rfl
  cases legacy with
  | allowed =>
    rw [if_neg (by decide), Reader.decode_of_read read fun _ => rfl]
    rcases old with rfl | rfl <;> rfl
  | refused =>
    have refused : ¬Legacy.refused.Permits escape := by
      rcases old with rfl | rfl <;> exact Legacy.not_permits rfl
    rw [if_pos rfl, Reader.decode_of_refused read refused]
    rcases old with rfl | rfl <;>
      simp only [Escape.refusedFeatures, Features.empty_eq, Features.union_empty] <;> rfl

/-- Just after a backslash, reading with checked operations is reading. -/
theorem decode_eq (legacy : Legacy) (after : 0 < reader.pos) :
    decode legacy reader = .ok (reader.decode legacy) := by
  cases here : reader.rest with
  | nil =>
    have ended : reader.current? = none := by rw [Reader.current?_eq, here, List.head?_nil]
    simp only [decode, ended, sub_eq after, ok_bind, Reader.decode_of_ended here after]
    rfl
  | cons unit more =>
    have current : reader.current? = some unit := by
      rw [Reader.current?_eq, here, List.head?_cons]
    have next : (reader.advance 1).rest = more := Reader.rest_advance_one here
    have announced := Lead.announced_ofUnit unit
    simp only [decode, current, Reader.current?_eq (reader.advance 1), next]
    cases lead : Lead.ofUnit unit with
    | control named =>
      rw [lead] at announced
      have read : Escape.read? reader.rest = some (.control named) := by
        rw [here, announced]
        cases named <;> rfl
      rw [Reader.decode_of_read read (legacy.permits_modern rfl), Reader.succeed_of_unnoted rfl]
      rfl
    | hex =>
      rw [lead] at announced
      cases announced
      rw [Reader.decode_of_other here (by decide), here, ← next]
      exact hexDigits_two reader
    | unicode =>
      rw [lead] at announced
      cases announced
      rw [Reader.decode_of_other here (by decide), here, ← next]
      exact unicode_eq reader
    | lineBreak first =>
      rw [lead] at announced
      exact decode_lineBreak announced.1 (by rw [here, announced.2, List.singleton_append])
    | octal digit =>
      rw [lead] at announced
      cases announced
      simp only [limit_eq]
      exact decode_octal here
    | eight =>
      rw [lead] at announced
      cases announced
      exact decode_eightNine (Or.inl rfl) here
    | nine =>
      rw [lead] at announced
      cases announced
      exact decode_eightNine (Or.inr rfl) here
    | plain =>
      have read : Escape.read? reader.rest = some (.identity unit lead) := by
        rw [here, Escape.read?_plain lead]
      rw [Reader.decode_of_read read (legacy.permits_modern rfl), Reader.succeed_of_unnoted rfl]
      rfl

/-- What an escape covers lies within the text, and where there is none nothing is cut out of it. -/
theorem scan_eq (legacy : Legacy) (reader : Reader) :
    scan legacy reader = .ok (reader.scan legacy) := by
  have after : 0 < (reader.advance 1).pos := Nat.succ_pos reader.pos
  rw [scan, decode_eq legacy after, ok_bind, Reader.scan]
  rcases Reader.decode_cases legacy Unit after with
    ⟨escape, more, split, -, read⟩ | ⟨fault, offset, -, faulty⟩
  · have positive := List.length_pos_iff.2 escape.body_ne_nil
    have lengths := congrArg List.length split
    rw [Reader.rest, List.length_drop, List.length_append] at lengths
    have stop : reader.pos + 1 + escape.body.length ≤ reader.text.length := by
      simp only [Reader.advance] at lengths
      omega
    rw [read]
    simp only [Reader.succeed, Reader.advance]
    rw [slice_eq (by omega) stop]
    rfl
  · rcases reading : (reader.advance 1).decode legacy with ⟨outcome, passed⟩
    rw [reading] at faulty
    cases faulty
    rfl

end Checked

end Unquote
