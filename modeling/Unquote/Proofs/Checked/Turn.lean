import Unquote.Checked.Scan
import Unquote.Proofs.Checked.Escape
import Unquote.Proofs.Token.Scanner

/-! One turn of the loop, told by the step of the body at the reader's place. No operation of a
turn traps, and a turn that does not end the loop takes one construct. -/

namespace Unquote

def Reader.take (notes : Construct → Features) (reader : Reader) (construct : Construct) : Reader :=
  { reader with
    pos := reader.pos + construct.width
    features := reader.features ∪ notes construct
    units := reader.units ++ construct.trace reader.offset }

theorem Reader.take_of_unnoted {notes : Construct → Features} {construct : Construct}
    (unnoted : notes construct = ∅) (reader : Reader) :
    reader.take notes construct = { reader with
      pos := reader.pos + construct.width
      units := reader.units ++ construct.trace reader.offset } := by
  rw [take, unnoted, Features.union_empty]

namespace Opened

def scanner : Opened → Token.Scanner
  | literal quote => .ofQuote quote
  | template opening => .ofOpening opening

/-- The features that are noted at a construct. A template notes those of escapes alone. -/
def notes : Opened → Construct → Features
  | literal _, construct => construct.features
  | template _, .escape escape => escape.features
  | template _, _ => ∅

theorem notes_escape (opened : Opened) (escape : Escape) :
    opened.notes (.escape escape) = escape.features := by
  cases opened <;> rfl

def deliver : (opened : Opened) → Reader → opened.scanner.Mark → Delivered
  | literal quote, reader, _ => .literal quote reader.units reader.features
  | template opening, reader, closing => .template (.of opening closing) reader.units

def turnAt (opened : Opened) (reader : Reader) : Step opened.scanner.Mark → Checked.Turn
  | .piece construct => .next (reader.take opened.notes construct)
  | .close mark width => Checked.close (opened.deliver reader mark) (reader.advance width)
  | .fault fault offset => .done (.error ⟨fault, (Text.offset (reader.pos + offset)).toNat⟩)

def turn (opened : Opened) (reader : Reader) : Checked.Turn :=
  match reader.rest with
  | [] => .done (.error ⟨.unterminated, 0⟩)
  | unit :: more => opened.turnAt reader (opened.scanner.rules.step unit more)

end Opened

namespace Checked

variable {reader : Reader} {unit : CodeUnit} {more : List CodeUnit}

theorem length_rest_add_pos (inside : reader.rest ≠ []) :
    reader.pos + reader.rest.length = reader.text.length := by
  have remaining : 0 < reader.rest.length := List.length_pos_iff.2 inside
  rw [Reader.rest, List.length_drop] at remaining ⊢
  omega

theorem reader_slice {source : List CodeUnit} (here : reader.rest = source ++ more) :
    reader.slice reader.pos (reader.pos + source.length) = source := by
  rw [Reader.slice, ← Reader.rest, here, Nat.add_sub_cancel_left, List.take_left]

theorem slice_here {source : List CodeUnit} (here : reader.rest = source ++ more)
    (present : source ≠ []) :
    slice reader.text reader.pos (reader.pos + source.length) = .ok source := by
  have inside : reader.rest ≠ [] := by
    rw [here]
    exact List.append_ne_nil_of_left_ne_nil present more
  have length := length_rest_add_pos inside
  rw [here, List.length_append] at length
  rw [slice_eq (by omega) (by omega)]
  exact congrArg _ (reader_slice here)

theorem keep_eq (construct : Construct) {code : CodeUnit}
    (here : reader.rest = construct.source ++ more) (value : construct.value = .unit code) :
    keep code construct.width reader = .ok { reader with
      pos := reader.pos + construct.width
      units := reader.units ++ construct.trace reader.offset } := by
  have source := slice_here here construct.source_ne_nil
  rw [keep, Construct.width, source, ok_bind, Construct.trace, value]
  rfl

theorem escape_eq (opened : Opened) {legacy : Legacy} (here : reader.rest = .backslash :: more) :
    escape legacy reader = .ok (opened.turnAt reader (.ofEscape legacy more)) := by
  have next := Reader.rest_advance_one here
  rw [escape, scan_eq, ok_bind, Reader.scan]
  have passed : 0 < (reader.advance 1).pos := Nat.succ_pos reader.pos
  rcases Reader.decode_cases legacy opened.scanner.Mark passed with
    ⟨inner, after, split, step, read⟩ | ⟨fault, offset, step, faulty⟩
  · rw [next] at split step
    have source : reader.rest = inner.source ++ after := by
      rw [here, split]
      rfl
    have width : (reader.advance 1).pos + inner.body.length = reader.pos + inner.source.length := by
      rw [Escape.source, List.length_cons, Nat.add_comm _ 1, ← Nat.add_assoc]
      rfl
    rw [read, step, Opened.turnAt, Reader.take, Opened.notes_escape]
    simp only [Reader.succeed, width, reader_slice source]
    rfl
  · rw [next] at step
    rcases reading : (reader.advance 1).decode legacy with ⟨outcome, passed⟩
    rw [reading] at faulty
    cases faulty
    rw [step]
    rfl

theorem literalTurn_eq (quote : Quote) (here : reader.rest = unit :: more) :
    literalTurn quote reader =
      .ok ((Opened.literal quote).turnAt reader (StringLiteral.step quote unit more)) := by
  have current : reader.current? = some unit := by
    rw [Reader.current?_eq, here, List.head?_cons]
  simp only [literalTurn, current]
  by_cases closes : unit = quote.unit
  · simp only [StringLiteral.step, if_pos closes]
    rfl
  · by_cases backslash : unit = .backslash
    · simp only [StringLiteral.step, if_neg closes, if_pos backslash]
      rw [backslash] at here
      exact escape_eq (.literal quote) here
    · by_cases breaks : unit = .lineFeed ∨ unit = .carriageReturn
      · simp only [StringLiteral.step, if_neg closes, if_neg backslash, if_pos breaks]
        rfl
      · simp only [StringLiteral.step, if_neg closes, if_neg backslash, if_neg breaks]
        by_cases separator : unit.isSeparator
        · have noted : (Construct.raw unit).features = .ofLineTerminator := if_pos separator
          have kept : keep unit 1 { reader with features := reader.features ∪ .ofLineTerminator } =
              .ok (reader.take Construct.features (.raw unit)) := by
            rw [Reader.take, noted]
            exact keep_eq (.raw unit) here rfl
          rw [if_pos separator, kept]
          rfl
        · have unnoted : (Construct.raw unit).features = ∅ := if_neg separator
          have kept : keep unit 1 reader =
              .ok (reader.take Construct.features (.raw unit)) := by
            rw [Reader.take_of_unnoted unnoted]
            exact keep_eq (.raw unit) here rfl
          rw [if_neg separator, kept]
          rfl

theorem templateTurn_eq (opening : Opening) (here : reader.rest = unit :: more) :
    templateTurn opening reader =
      .ok ((Opened.template opening).turnAt reader (Template.step unit more)) := by
  have current : reader.current? = some unit := by
    rw [Reader.current?_eq, here, List.head?_cons]
  have next : reader.peek? 1 = more.head? := by
    rw [Reader.peek?_eq, here, List.getElem?_cons_succ, List.head?_eq_getElem?]
  simp only [templateTurn, current, next]
  by_cases backtick : unit = .backtick
  · simp only [Template.step, if_pos backtick]
    rfl
  · by_cases substitution : unit = .dollar ∧ more.head? = some .openBrace
    · simp only [Template.step, if_neg backtick, if_pos substitution]
      rfl
    · by_cases backslash : unit = .backslash
      · simp only [Template.step, if_neg backtick, if_neg substitution, if_pos backslash]
        rw [backslash] at here
        exact escape_eq (.template opening) here
      · by_cases joined : unit = .carriageReturn ∧ more.head? = some .lineFeed
        · simp only [Template.step, if_neg backtick, if_neg substitution, if_neg backslash,
            if_pos joined]
          obtain ⟨after, rfl⟩ := List.head?_eq_some_iff.1 joined.2
          rw [joined.1] at here
          have kept : keep .lineFeed 2 reader =
              .ok (reader.take (Opened.template opening).notes .crlf) := by
            rw [Reader.take_of_unnoted rfl]
            exact keep_eq .crlf here rfl
          rw [kept]
          rfl
        · simp only [Template.step, if_neg backtick, if_neg substitution, if_neg backslash,
            if_neg joined]
          have kept : keep unit 1 reader =
              .ok (reader.take (Opened.template opening).notes (.raw unit)) := by
            rw [Reader.take_of_unnoted rfl]
            exact keep_eq (.raw unit) here rfl
          rw [kept]
          rfl

/-- A turn takes the step of the body, and nothing in it traps. -/
theorem turn_eq (opened : Opened) (reader : Reader) :
    turn opened reader = .ok (opened.turn reader) := by
  unfold Opened.turn
  cases here : reader.rest with
  | nil =>
    have current : reader.current? = none := by
      rw [Reader.current?_eq, here, List.head?_nil]
    cases opened with
    | literal quote => simp only [turn, literalTurn, current]; rfl
    | template opening => simp only [turn, templateTurn, current]; rfl
  | cons unit more =>
    cases opened with
    | literal quote => exact literalTurn_eq quote here
    | template opening => exact templateTurn_eq opening here

end Checked

namespace Opened

variable {opened : Opened} {reader passed : Reader} {construct : Construct} {more : List CodeUnit}

theorem turn_of_piece (here : reader.rest = construct.source ++ more)
    (admitted : opened.scanner.rules.Admits more.head? construct) :
    opened.turn reader = .next (reader.take opened.notes construct) := by
  obtain ⟨unit, others, same⟩ := List.exists_cons_of_ne_nil construct.source_ne_nil
  rw [same, List.cons_append] at here
  have step := opened.scanner.rules.piece_iff.2
    ⟨more, congrArg (· ++ more) same.symm, admitted⟩
  rw [turn, here]
  exact congrArg (opened.turnAt reader) step

theorem turn_of_close {mark : opened.scanner.Mark}
    (here : reader.rest = opened.scanner.rules.delimiter mark ++ more) :
    opened.turn reader = Checked.close (opened.deliver reader mark)
      (reader.advance (opened.scanner.rules.delimiter mark).length) := by
  obtain ⟨unit, others, same, -⟩ := opened.scanner.rules.delimiter_apart mark
  have step : opened.scanner.rules.step unit (others ++ more) =
      .close mark (opened.scanner.rules.delimiter mark).length :=
    opened.scanner.rules.close_iff.2 ⟨rfl, more, congrArg (· ++ more) same.symm⟩
  rw [same, List.cons_append] at here
  rw [turn, here]
  exact congrArg (opened.turnAt reader) step

theorem piece_of_turn (next : opened.turn reader = .next passed) :
    ∃ construct more, reader.rest = construct.source ++ more ∧
      passed = reader.take opened.notes construct := by
  unfold turn at next
  split at next
  next => contradiction
  next unit others here =>
    cases step : opened.scanner.rules.step unit others with
    | piece construct =>
      rw [step] at next
      cases next
      obtain ⟨more, split, -⟩ := opened.scanner.rules.piece_iff.1 step
      exact ⟨construct, more, here.trans split, rfl⟩
    | close mark width =>
      rw [step, turnAt, Checked.close] at next
      split at next <;> contradiction
    | fault fault offset =>
      rw [step] at next
      contradiction

end Opened

end Unquote
