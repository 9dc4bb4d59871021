import Unquote.Proofs.Checked.Turn
import Unquote.Proofs.Token.Provenance

/-! The whole loop with checked operations. The reader is always just after some of the constructs
that the body begins with, and each turn takes the next of them. So no turn traps, and there are no
more turns than units. -/

namespace Unquote

namespace Reader

variable {notes : Construct → Features} {more : List CodeUnit}

theorem rest_take {reader : Reader} {construct : Construct}
    (here : reader.rest = construct.source ++ more) :
    (reader.take notes construct).rest = more := by
  have passed : (reader.take notes construct).rest = reader.rest.drop construct.width :=
    rest_advance reader construct.width
  rw [passed, here, Construct.width, List.drop_left]

def takeAll (notes : Construct → Features) (reader : Reader) (constructs : List Construct) :
    Reader :=
  constructs.foldl (take notes) reader

theorem takeAll_cons (reader : Reader) (construct : Construct) (rest : List Construct) :
    reader.takeAll notes (construct :: rest) = (reader.take notes construct).takeAll notes rest :=
  rfl

theorem takeAll_concat (reader : Reader) (constructs : List Construct) (last : Construct) :
    reader.takeAll notes (constructs ++ [last]) =
      (reader.takeAll notes constructs).take notes last := by
  rw [takeAll, List.foldl_append]
  rfl

theorem takeAll_text (reader : Reader) (constructs : List Construct) :
    (reader.takeAll notes constructs).text = reader.text := by
  induction constructs generalizing reader with
  | nil => rfl
  | cons construct rest ih =>
    rw [takeAll_cons, ih]
    rfl

theorem takeAll_pos (reader : Reader) (constructs : List Construct) :
    (reader.takeAll notes constructs).pos =
      reader.pos + (Construct.sourceAll constructs).length := by
  induction constructs generalizing reader with
  | nil => rfl
  | cons construct rest ih =>
    rw [takeAll_cons, ih, Construct.sourceAll_cons, List.length_append, ← Nat.add_assoc]
    rfl

theorem rest_takeAll {reader : Reader} {constructs : List Construct}
    (here : reader.rest = Construct.sourceAll constructs ++ more) :
    (reader.takeAll notes constructs).rest = more := by
  rw [rest, takeAll_text, takeAll_pos, ← List.drop_drop, ← rest, here, List.drop_left]

theorem takeAll_features (notes : Construct → Features) (reader : Reader)
    (constructs : List Construct) :
    (reader.takeAll notes constructs).features =
      constructs.foldl (fun noted construct => noted ∪ notes construct) reader.features := by
  induction constructs generalizing reader with
  | nil => rfl
  | cons construct rest ih =>
    rw [takeAll_cons, ih]
    rfl

theorem takeAll_units (notes : Construct → Features) (reader : Reader)
    (constructs : List Construct)
    (small : reader.pos + (Construct.sourceAll constructs).length < UInt32.size) :
    (reader.takeAll notes constructs).units =
      reader.units ++ Construct.traceAll reader.pos constructs := by
  induction constructs generalizing reader with
  | nil => exact (List.append_nil _).symm
  | cons construct rest ih =>
    rw [Construct.sourceAll_cons, List.length_append] at small
    have place : reader.offset = reader.pos := offset_eq_pos (by omega)
    have later : (reader.take notes construct).pos + (Construct.sourceAll rest).length <
        UInt32.size := by
      change reader.pos + construct.source.length + _ < _
      omega
    rw [takeAll_cons, ih (reader.take notes construct) later, Construct.traceAll_cons,
      ← List.append_assoc]
    simp only [take, place]

end Reader

namespace Checked

variable {opened : Opened} {reader : Reader} {text : List CodeUnit}

inductive Reached (opened : Opened) (text : List CodeUnit) : Reader → Prop
  | begun : Reached opened text (begin text)
  | turned {reader passed : Reader} (before : Reached opened text reader)
    (next : turn opened reader = .ok (.next passed)) : Reached opened text passed

theorem rest_begin (text : List CodeUnit) : (begin text).rest = text.tail :=
  List.drop_one

theorem Reached.exists_takeAll (reached : Reached opened text reader) :
    ∃ constructs more, text.tail = Construct.sourceAll constructs ++ more ∧
      reader = (begin text).takeAll opened.notes constructs := by
  induction reached with
  | begun => exact ⟨[], text.tail, rfl, rfl⟩
  | turned before next ih =>
    obtain ⟨constructs, more, split, rfl⟩ := ih
    -- What the reader has before it is the rest of the body, so the turn takes its next construct.
    rw [turn_eq] at next
    obtain ⟨construct, after, here, rfl⟩ := Opened.piece_of_turn (Except.ok.inj next)
    rw [Reader.rest_takeAll ((rest_begin text).trans split)] at here
    refine ⟨constructs ++ [construct], after, ?_, (Reader.takeAll_concat ..).symm⟩
    rw [split, here, Construct.sourceAll_append, Construct.sourceAll_cons, Construct.sourceAll_nil,
      List.append_nil, List.append_assoc]

theorem run_next {passed : Reader} (next : opened.turn reader = .next passed) (turns : Nat) :
    run opened (turns + 1) reader = run opened turns passed := by
  rw [run, turn_eq, ok_bind, next]

theorem run_done {outcome : Except SyntaxError Delivered}
    (done : opened.turn reader = .done outcome) (turns : Nat) :
    run opened (turns + 1) reader = .ok outcome := by
  rw [run, turn_eq, ok_bind, done]
  rfl

/-- Each construct that may stand where it does takes one turn. -/
theorem run_takeAll {constructs : List Construct} {tail : List CodeUnit}
    (spelled : opened.scanner.rules.Spelled constructs tail)
    (here : reader.rest = Construct.sourceAll constructs ++ tail) (turns : Nat) :
    run opened (constructs.length + turns) reader =
      run opened turns (reader.takeAll opened.notes constructs) := by
  induction constructs generalizing reader with
  | nil =>
    rw [List.length_nil, Nat.zero_add]
    rfl
  | cons construct rest ih =>
    rw [Construct.sourceAll_cons, List.append_assoc] at here
    rw [List.length_cons, Nat.add_right_comm, run_next (Opened.turn_of_piece here spelled.1),
      ih spelled.2 (Reader.rest_take here), Reader.takeAll_cons]

theorem fault_offset_le {unit : CodeUnit} {more : List CodeUnit} {fault : Fault} {offset : Nat}
    (found : opened.scanner.rules.step unit more = .fault fault offset) : offset ≤ more.length := by
  rcases opened.scanner.rules.fault_iff.1 found with ⟨-, escape⟩ | ⟨-, -, rfl⟩
  · rcases Step.ofEscape_eq_fault_iff.1 escape with ⟨-, -, rfl⟩ | ⟨present, -, rfl, -⟩
    · exact Nat.zero_le _
    · exact List.length_pos_iff.2 present
  · exact Nat.zero_le _

theorem turn_of_ends {constructs : List Construct} {tail : List CodeUnit}
    {result : Except SyntaxError (Body opened.scanner.Mark)}
    (ends : opened.scanner.rules.Ends constructs tail result) (here : reader.rest = tail)
    (place : reader.pos = 1 + (Construct.sourceAll constructs).length)
    (small : reader.text.length < UInt32.size) :
    opened.turn reader = .done (result.map fun body => opened.deliver reader body.closing) := by
  cases ends with
  | exhausted =>
    rw [Opened.turn, here]
    rfl
  | closed mark =>
    have ended : (reader.advance (opened.scanner.rules.delimiter mark).length).atEnd := by
      rw [Reader.atEnd_iff_rest_nil, Reader.rest_advance, here, List.drop_length]
    rw [Opened.turn_of_close (here.trans (List.append_nil _).symm), close, if_pos ended]
    rfl
  | overrun mark next more =>
    have left : (reader.advance (opened.scanner.rules.delimiter mark).length).rest =
        next :: more := by
      rw [Reader.rest_advance, here, List.drop_left]
    have present : (reader.advance (opened.scanner.rules.delimiter mark).length).rest ≠ [] := by
      rw [left]
      exact List.cons_ne_nil next more
    have further : ¬(reader.advance (opened.scanner.rules.delimiter mark).length).atEnd :=
      mt (Reader.atEnd_iff_rest_nil _).1 present
    have inside := Nat.le.intro (length_rest_add_pos present)
    have reported := Reader.offset_eq_pos (Nat.lt_of_le_of_lt inside small)
    rw [Opened.turn_of_close here, close, if_neg further, reported, Reader.advance, place]
    rfl
  | @fault unit more fault offset found =>
    have present : reader.rest ≠ [] := by
      rw [here]
      exact List.cons_ne_nil unit more
    have inside := length_rest_add_pos present
    have near := fault_offset_le found
    rw [here, List.length_cons] at inside
    have reported : (Text.offset (reader.pos + offset)).toNat = reader.pos + offset :=
      Text.offset_toNat (by omega)
    rw [Opened.turn, here]
    simp only [found, Opened.turnAt, reported]
    rw [place]
    rfl

theorem deliver_takeAll (text : List CodeUnit) {constructs : List Construct}
    (mark : opened.scanner.Mark)
    (small : 1 + (Construct.sourceAll constructs).length < UInt32.size) :
    opened.deliver ((begin text).takeAll opened.notes constructs) mark =
      (opened.scanner.token ⟨constructs, mark⟩).delivered := by
  have units := Reader.takeAll_units opened.notes (begin text) constructs small
  have features := Reader.takeAll_features opened.notes (begin text) constructs
  cases opened with
  | literal quote =>
    simp only [Opened.deliver, units, features]
    rfl
  | template opening =>
    simp only [Opened.deliver, units]
    rfl

theorem length_le_sourceAll (constructs : List Construct) :
    constructs.length ≤ (Construct.sourceAll constructs).length := by
  induction constructs with
  | nil => exact Nat.le_refl 0
  | cons construct rest ih =>
    have positive : 0 < construct.source.length := construct.width_pos
    rw [Construct.sourceAll_cons, List.length_append, List.length_cons]
    omega

theorem run_eq (opened : Opened) (first : CodeUnit) (units : List CodeUnit)
    (small : (first :: units).length < UInt32.size) :
    run opened (first :: units).length (begin (first :: units)) =
      .ok ((Body.read opened.scanner.rules.step units).map
        fun body => (opened.scanner.token body).delivered) := by
  obtain ⟨constructs, tail, split, spelled, ends⟩ :=
    Body.Rules.read_eq_iff.1 (rfl : Body.read opened.scanner.rules.step units = _)
  have here : (begin (first :: units)).rest = Construct.sourceAll constructs ++ tail := split
  have length := congrArg List.length split
  rw [List.length_append] at length
  rw [List.length_cons] at small
  -- One turn for each construct and one for the end. What is left over is never used.
  have enough : (first :: units).length =
      constructs.length + (units.length - constructs.length + 1) := by
    have fewer := length_le_sourceAll constructs
    rw [List.length_cons]
    omega
  have place : ((begin (first :: units)).takeAll opened.notes constructs).pos =
      1 + (Construct.sourceAll constructs).length := Reader.takeAll_pos ..
  have last := turn_of_ends ends (Reader.rest_takeAll here) place
    (by rw [Reader.takeAll_text]; exact small)
  rw [enough, run_takeAll spelled here, run_done last]
  generalize Body.read opened.scanner.rules.step units = result at ends
  cases ends with
  | closed mark =>
    have short : 1 + (Construct.sourceAll constructs).length < UInt32.size := by omega
    exact congrArg (fun given => Except.ok (Except.ok given))
      (deliver_takeAll (first :: units) mark short)
  | _ => rfl

theorem scanner?_eq (kind : TokenKind) (unit : CodeUnit) :
    Token.scanner? kind unit = (Opened.ofUnit? kind unit).map Opened.scanner := by
  cases kind <;> simp only [Token.scanner?, Opened.ofUnit?, Option.map_map] <;> rfl

theorem parse_eq (kind : TokenKind) (text : List CodeUnit) (small : text.length < UInt32.size) :
    parse kind text = .ok ((Token.parse kind text).map Token.delivered) := by
  cases text with
  | nil =>
    rw [Token.parse_nil]
    rfl
  | cons first units =>
    have scanner := scanner?_eq kind first
    cases found : Opened.ofUnit? kind first with
    | none =>
      rw [found] at scanner
      rw [Token.parse_of_unopened scanner, parse, List.head?_cons, Option.bind_some, found]
      rfl
    | some opened =>
      rw [found] at scanner
      rw [Token.parse_of_opened scanner, map_map, parse, List.head?_cons, Option.bind_some, found]
      exact run_eq opened first units small

theorem Reached.text_eq (reached : Reached opened text reader) : reader.text = text := by
  obtain ⟨constructs, -, -, rfl⟩ := reached.exists_takeAll
  exact Reader.takeAll_text ..

theorem Reached.next_inside {passed : Reader} (reached : Reached opened text reader)
    (next : opened.turn reader = .next passed) :
    reader.pos < passed.pos ∧ passed.pos ≤ text.length := by
  obtain ⟨construct, more, here, rfl⟩ := Opened.piece_of_turn next
  have positive : 0 < construct.source.length := construct.width_pos
  have inside := length_rest_add_pos
    (by rw [here]; exact List.append_ne_nil_of_left_ne_nil construct.source_ne_nil more)
  rw [here, List.length_append, reached.text_eq] at inside
  have passed : (reader.take opened.notes construct).pos = reader.pos + construct.source.length :=
    rfl
  omega

theorem Reached.stop_le (reached : Reached opened text reader) (small : text.length < UInt32.size)
    (present : text ≠ []) : ∀ unit ∈ reader.units, unit.stop ≤ text.length := by
  obtain ⟨constructs, more, split, rfl⟩ := reached.exists_takeAll
  have lengths := congrArg List.length split
  have positive : 0 < text.length := List.length_pos_iff.2 present
  rw [List.length_tail, List.length_append] at lengths
  have place : (begin text).pos = 1 := rfl
  have units := Reader.takeAll_units opened.notes (begin text) constructs
    (by rw [place]; omega)
  intro unit member
  rw [units] at member
  obtain ⟨before, construct, after, rfl, -, start, source⟩ :=
    Construct.exists_of_mem_traceAll member
  rw [Construct.sourceAll_append, Construct.sourceAll_cons, List.length_append,
    List.length_append] at lengths
  rw [TracedUnit.stop, TracedUnit.length, start, source, place]
  omega

/-- What holds of reading a text: no turn traps and each takes some of the text, the offsets of a
unit do not wrap, and the reading comes to an end with the token or the fault. -/
structure Safe (kind : TokenKind) (text : List CodeUnit) : Prop where
  turns : ∀ opened reader, text.head?.bind (Opened.ofUnit? kind) = some opened →
    Reached opened text reader → ∃ outcome, turn opened reader = .ok outcome ∧
      ∀ passed, outcome = .next passed → reader.pos < passed.pos ∧ passed.pos ≤ text.length
  units : ∀ opened reader, text.head?.bind (Opened.ofUnit? kind) = some opened →
    Reached opened text reader → ∀ unit ∈ reader.units, unit.start + unit.length < UInt32.size
  ends : parse kind text = .ok ((Token.parse kind text).map Token.delivered)

theorem safe_of_small (kind : TokenKind) {text : List CodeUnit}
    (small : text.length < UInt32.size) : Safe kind text where
  turns opened reader _ reached :=
    ⟨opened.turn reader, turn_eq opened reader, fun _ => reached.next_inside⟩
  units opened reader opens reached unit member := by
    have present : text ≠ [] := by
      rintro rfl
      contradiction
    exact Nat.lt_of_le_of_lt (reached.stop_le small present unit member) small
  ends := parse_eq kind text small

def octalPair : List CodeUnit :=
  [.doubleQuote, .backslash, 0x33, 0x37, 0x37, .backslash, 0x75, .openBrace, 0x31, 0x46, 0x36, 0x30,
    0x30, .closeBrace, .doubleQuote]

theorem safe_octalPair :
    octalPair.length < UInt32.size ∧ Safe .string octalPair ∧
      parse .string octalPair = .ok (.ok (.literal .double
        [⟨0xFF, 1, (octalPair.drop 1).take 4, none⟩,
          ⟨0xD83D, 5, (octalPair.drop 5).take 9, some .high⟩,
          ⟨0xDE00, 5, (octalPair.drop 5).take 9, some .low⟩]
        (.ofOctalEscape ∪ .ofCodePointEscape))) :=
  ⟨by decide, safe_of_small .string (by decide), rfl⟩

end Checked

end Unquote
