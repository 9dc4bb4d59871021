import Unquote.Proofs.Body.Sequence
import Unquote.Proofs.Body.Stretch
import Unquote.Proofs.Token.Scanner

/-! Where the units of a token come from. The constructs of its body cover what lies between the
delimiters, and each unit names the construct that it came from. -/

namespace Unquote

theorem Escape.exists_lineBreak (escape : Escape)
    (breaks : escape.body.head?.any (·.isLineBreak)) :
    ∃ lineBreak, escape = .lineContinuation lineBreak := by
  cases escape with
  | lineContinuation lineBreak => exact ⟨lineBreak, rfl⟩
  | control named => cases named <;> contradiction
  | octal first more fits =>
    have never : first.unit.isLineBreak = false := by
      clear breaks fits
      decide +revert
    have breaks_first : first.unit.isLineBreak := by simpa [body] using breaks
    rw [never] at breaks_first
    contradiction
  | identity unit plain =>
    have breaks_unit : unit.isLineBreak := by simpa [body] using breaks
    obtain ⟨first, announced⟩ := (Lead.isLineBreak_iff unit).1 breaks_unit
    rw [plain] at announced
    contradiction
  | _ => contradiction

namespace Construct

theorem eq_raw_of_source {construct : Construct} {unit : CodeUnit}
    (single : construct.source = [unit]) : construct = .raw unit := by
  cases construct with
  | raw other =>
    cases single
    rfl
  | crlf => exact absurd (List.cons.inj single).2 (List.cons_ne_nil _ _)
  | escape inner => exact absurd (List.cons.inj single).2 inner.body_ne_nil

theorem isLineBreak_of_continuation (lineBreak : LineBreak) :
    lineBreak.units.head?.any (·.isLineBreak) := by
  cases lineBreak <;> decide

theorem value_of_continuation {construct : Construct} {lineBreak : LineBreak}
    (written : construct.source = lineBreak.continuation) : construct.value = .nothing := by
  cases construct with
  | raw unit =>
    have more := (List.cons.inj written).2
    cases lineBreak <;> contradiction
  | crlf =>
    have first := (List.cons.inj written).1
    contradiction
  | escape inner =>
    have same : inner.body = lineBreak.units := (List.cons.inj written).2
    have breaks := isLineBreak_of_continuation lineBreak
    rw [← same] at breaks
    obtain ⟨other, rfl⟩ := inner.exists_lineBreak breaks
    rfl

theorem exists_continuation {construct : Construct} (nothing : construct.value = .nothing) :
    ∃ lineBreak : LineBreak, construct.source = lineBreak.continuation := by
  cases construct with
  | escape inner =>
    cases inner with
    | lineContinuation lineBreak => exact ⟨lineBreak, rfl⟩
    | codePoint digits nonempty inRange =>
      simp only [value, Escape.value, Decoded.ofCodePoint] at nothing
      split at nothing <;> contradiction
    | _ => contradiction
  | _ => contradiction

theorem gives (construct : Construct) (start : Nat) :
    Gives start construct.source (construct.trace start) := by
  have apart : construct.value ≠ .nothing →
      ∀ lineBreak : LineBreak, construct.source ≠ lineBreak.continuation :=
    fun something _ written => something (value_of_continuation written)
  unfold trace
  cases value : construct.value with
  | nothing =>
    obtain ⟨lineBreak, written⟩ := exists_continuation value
    exact .continuation lineBreak written
  | unit code => exact .single code (apart (by rw [value]; nofun))
  | pair high low => exact .pair high low (apart (by rw [value]; nofun))

theorem getLast?_trace {construct : Construct} (something : construct.value ≠ .nothing)
    (start : Nat) : ∃ unit ∈ (construct.trace start).getLast?,
      unit.stop = start + construct.width ∧ unit.source = construct.source := by
  unfold trace
  cases value : construct.value with
  | nothing => exact absurd value something
  | unit code => exact ⟨_, rfl, rfl, rfl⟩
  | pair high low => exact ⟨_, rfl, rfl, rfl⟩

theorem exists_mem_trace {construct : Construct} (something : construct.value ≠ .nothing)
    (start : Nat) :
    ∃ unit ∈ construct.trace start, unit.start = start ∧ unit.source = construct.source := by
  obtain ⟨unit, last, -⟩ := getLast?_trace something start
  have member := List.mem_of_getLast? last
  exact ⟨unit, member, (construct.gives start).placed member⟩

theorem exists_of_mem_traceAll {constructs : List Construct} {start : Nat} {unit : TracedUnit}
    (member : unit ∈ traceAll start constructs) :
    ∃ before construct after, constructs = before ++ construct :: after ∧
      unit ∈ construct.trace (start + (sourceAll before).length) ∧
      unit.start = start + (sourceAll before).length ∧ unit.source = construct.source := by
  obtain ⟨before, construct, after, split, given⟩ := mem_traceAll.1 member
  exact ⟨before, construct, after, split, given, (construct.gives _).placed given⟩

def stretches (start : Nat) : List Construct → List Stretch
  | [] => []
  | construct :: rest =>
    ⟨start, start + construct.width, construct.trace start⟩ ::
      stretches (start + construct.width) rest

theorem stretches_units (start : Nat) (constructs : List Construct) :
    (stretches start constructs).flatMap (·.units) = traceAll start constructs := by
  induction constructs generalizing start with
  | nil => rfl
  | cons construct rest ih =>
    rw [stretches, List.flatMap_cons, ih, traceAll_cons]

theorem stretches_tiled {text : List CodeUnit} (constructs : List Construct)
    (before after : List CodeUnit) (split : text = before ++ sourceAll constructs ++ after) :
    Tiled text before.length (stretches before.length constructs)
      (before.length + (sourceAll constructs).length) := by
  induction constructs generalizing before with
  | nil => exact .done _
  | cons construct rest ih =>
    have here : text.extract before.length (before.length + construct.width) =
        construct.source := by
      simp [split, width]
    have gives := construct.gives before.length
    rw [← here] at gives
    have tiled := ih (before ++ construct.source) (by simp [split])
    rw [List.length_append] at tiled
    rw [sourceAll_cons, List.length_append, ← Nat.add_assoc]
    exact .step (Nat.lt_add_of_pos_right construct.width_pos) gives tiled

end Construct

namespace Token

variable {kind : TokenKind} {text : List CodeUnit} {token : Token}

theorem eq_of_parse (read : parse kind text = .ok token) :
    text = token.opening :: Construct.sourceAll token.constructs ++ token.closing := by
  cases kind with
  | string =>
    obtain ⟨literal, inner, rfl⟩ := map_eq_ok_iff.1 read
    exact (StringLiteral.parse_eq_ok_iff.1 inner).1
  | template =>
    obtain ⟨template, inner, rfl⟩ := map_eq_ok_iff.1 read
    exact (Template.parse_eq_ok_iff.1 inner).1

/-- The construct of a unit, and what is before and after it in the body and in the value. -/
theorem exists_construct {unit : TracedUnit} (member : unit ∈ token.units) :
    ∃ before construct after, token.constructs = before ++ construct :: after ∧
      unit ∈ construct.trace (1 + (Construct.sourceAll before).length) ∧
      unit.start = 1 + (Construct.sourceAll before).length ∧ unit.source = construct.source ∧
      ∃ front back, token.units =
        front ++ (construct.trace (1 + (Construct.sourceAll before).length) ++ back) := by
  rw [units_eq] at member
  obtain ⟨before, construct, after, split, given, begins, source⟩ :=
    Construct.exists_of_mem_traceAll member
  have units := token.units_eq
  rw [split, Construct.traceAll_append, Construct.traceAll_cons] at units
  exact ⟨before, construct, after, split, given, begins, source, _, _, units⟩

def bodyStop (text : List CodeUnit) (token : Token) : Nat := text.length - token.closing.length

/-- A division of a token into stretches, between the delimiters, that accounts for its units. -/
structure Partition (text : List CodeUnit) (token : Token) (stretches : List Stretch) : Prop where
  delimited : text = token.opening :: text.extract 1 (bodyStop text token) ++ token.closing
  tiled : Tiled text 1 stretches (bodyStop text token)
  emitted : token.units = stretches.flatMap (·.units)
  placed : ∀ stretch ∈ stretches, ∀ unit ∈ stretch.units,
    unit.start = stretch.start ∧ unit.stop = stretch.stop ∧
      (Text.offset unit.start + Text.offset unit.length).toNat = stretch.stop
  ordered : token.units.Pairwise fun first second => first.start ≤ second.start
  gaps : ∀ before after, token.units = before ++ after →
    Gap text 1 before after (bodyStop text token)
  rebuilt : (∀ stretch ∈ stretches, ∀ lineBreak : LineBreak,
      text.extract stretch.start stretch.stop ≠ lineBreak.continuation) →
    text = token.opening :: (token.units.filter (·.half ≠ some .low)).flatMap (·.source) ++
      token.closing

theorem offset_stop {unit : TracedUnit} (small : unit.stop < UInt32.size) :
    (Text.offset unit.start + Text.offset unit.length).toNat = unit.stop := by
  rw [Text.offset, Text.offset, ← UInt32.ofNat_add]
  exact Text.offset_toNat small

/-- The constructs of a token part its body, and its units are theirs. -/
theorem exists_partition (read : parse kind text = .ok token) (small : text.length < UInt32.size) :
    ∃ stretches, Partition text token stretches := by
  have split := eq_of_parse read
  have stop : bodyStop text token = 1 + (Construct.sourceAll token.constructs).length := by
    have length := congrArg List.length split
    rw [List.length_append, List.length_cons] at length
    rw [bodyStop]
    omega
  have inside : bodyStop text token ≤ text.length := Nat.sub_le ..
  have tiled : Tiled text 1 (Construct.stretches 1 token.constructs) (bodyStop text token) := by
    rw [stop]
    exact Construct.stretches_tiled token.constructs [token.opening] token.closing split
  have emitted : token.units = (Construct.stretches 1 token.constructs).flatMap (·.units) := by
    rw [units_eq, Construct.stretches_units]
  have delimited : text = token.opening :: text.extract 1 (bodyStop text token) ++ token.closing := by
    have body : text.extract 1 (bodyStop text token) = Construct.sourceAll token.constructs := by
      rw [stop, split]
      simp
    rw [body]
    exact split
  refine ⟨Construct.stretches 1 token.constructs, delimited, tiled, emitted, ?_, ?_, ?_, ?_⟩
  · intro stretch member unit given
    obtain ⟨begins, ends⟩ := tiled.placed inside member given
    have bounds := tiled.bounds member
    exact ⟨begins, ends, ends ▸ offset_stop (by omega)⟩
  · rw [emitted]
    exact tiled.ordered inside
  · intro before after parted
    rw [emitted] at parted
    exact tiled.gap inside parted
  · intro apart
    rw [emitted, tiled.rebuilt apart]
    exact delimited

def continuedPair : List CodeUnit :=
  [.doubleQuote, 0x61, .backslash, .lineFeed, .backslash, 0x75, .openBrace, 0x31, 0x46, 0x36, 0x30,
    0x30, .closeBrace, .doubleQuote]

theorem exists_partition_continuedPair :
    ∃ token, parse .string continuedPair = .ok token ∧ continuedPair.length < UInt32.size ∧
      ∃ stretches, Partition continuedPair token stretches :=
  ⟨_, rfl, by decide, @exists_partition .string continuedPair _ rfl (by decide)⟩

end Token

end Unquote
