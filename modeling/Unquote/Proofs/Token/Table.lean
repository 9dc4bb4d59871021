import Mathlib.Data.List.Basic
import Unquote.Proofs.Text.Quoted
import Unquote.Proofs.Token.Shown
import Unquote.Token.Format

/-! The table of a token, read back. Numbers end at a space and quoted text at its mark, so a line
shows where each of its columns ends however long they are, and no token can show a line that is not
its own. The white space that the end of the table loses is padding. -/

namespace Unquote

namespace Text

theorem padEnd_eq (width : Nat) (chars : List Char) :
    padEnd width chars = chars ++ List.replicate (width - chars.length) ' ' := rfl

theorem trimEnd_append_spaces (chars : List Char) (count : Nat) :
    trimEnd (chars ++ List.replicate count ' ') = trimEnd chars := by
  induction count with
  | zero => rw [List.replicate_zero, List.append_nil]
  | succ count ih =>
    rw [List.replicate_succ', ← List.append_assoc, trimEnd_append_blank (by decide), ih]

/-- Text up to the first space is known from what it is part of, and so is what comes after the
space. -/
theorem append_space_inj {first second rest more : List Char} (whole : ' ' ∉ first)
    (other : ' ' ∉ second) (same : first ++ ' ' :: rest = second ++ ' ' :: more) :
    first = second ∧ rest = more := by
  have bare {chars : List Char} (whole : ' ' ∉ chars) : ∀ char ∈ chars, char ≠ ' ' :=
    fun char member space => whole (space ▸ member)
  have space (rest : List Char) : ∀ char ∈ (' ' :: rest).head?, ¬char ≠ ' ' :=
    fun char first other => other (Option.some.inj first).symm
  obtain ⟨rfl, tails⟩ := append_inj_of_run (bare whole) (bare other) (space rest) (space more) same
  exact ⟨rfl, (List.cons.inj tails).2⟩

theorem padEnd_append_inj {width : Nat} {first second rest more : List Char} (whole : ' ' ∉ first)
    (other : ' ' ∉ second) (same : padEnd width first ++ ' ' :: rest =
      padEnd width second ++ ' ' :: more) : first = second ∧ rest = more := by
  have unpadded (chars rest : List Char) : padEnd width chars ++ ' ' :: rest =
      chars ++ ' ' :: (List.replicate (width - chars.length) ' ' ++ rest) := by
    rw [padEnd_eq, List.append_assoc, List.append_cons, ← List.replicate_succ',
      List.replicate_succ, List.cons_append]
  have columns := same
  rw [unpadded, unpadded] at columns
  obtain ⟨rfl, -⟩ := append_space_inj whole other columns
  exact ⟨rfl, (List.cons.inj (List.append_cancel_left same)).2⟩

theorem truth_append_inj {first second : Bool} {rest more : List Char}
    (same : (truth first).toList ++ rest = (truth second).toList ++ more) :
    first = second ∧ rest = more := by
  cases first <;> cases second
  · exact ⟨rfl, List.append_cancel_left same⟩
  · exact absurd (List.cons.inj same).1 (by decide)
  · exact absurd (List.cons.inj same).1 (by decide)
  · exact ⟨rfl, List.append_cancel_left same⟩

end Text

namespace Token.Table

open Text

structure Entry where
  start : Nat
  stop : Nat
  code : CodeUnit
  text : String
  half : Option Half
deriving DecidableEq

/-- Text has the replacement character for every unpaired surrogate of the source. -/
def entry (unit : TracedUnit) : Entry :=
  ⟨unit.start, unit.start + unit.source.length, unit.code, Utf16.decodeLossy unit.source, unit.half⟩

def shownSource (unit : TracedUnit) : List Char :=
  quoted '\"' (Utf16.decodeLossy unit.source).toList

def front (unit : TracedUnit) : List Char :=
  padEnd 6 (decimal unit.start) ++ [' '] ++
    padEnd 6 (decimal (unit.start + unit.source.length)) ++ [' '] ++
    "0x".toList ++ hexadecimalPadded 4 unit.code.toNat ++ [' ', ' '] ++
    padEnd 9 (shownChar unit) ++ [' '] ++ shownSource unit

def gap (unit : TracedUnit) : Nat := 15 - (shownSource unit).length + 1

/-- The row of a unit at the end of a table: it has no padding after a source that is the last
column to be filled. -/
def lastRow (unit : TracedUnit) : List Char :=
  match unit.half with
  | none => front unit
  | some _ => row unit

def lines (units : List TracedUnit) : List (List Char) :=
  units.dropLast.map row ++ units.getLast?.toList.map lastRow

section

variable {unit other : TracedUnit}

theorem row_eq (unit : TracedUnit) : row unit = front unit ++
    (List.replicate (gap unit) ' ' ++ ((unit.half.map Half.name).getD "").toList) := by
  rw [gap, List.replicate_succ']
  simp only [row, front, padEnd_eq, shownSource, TracedUnit.stop, TracedUnit.length,
    TracedUnit.sourceText, List.append_assoc]

theorem row_of_unmarked (unmarked : unit.half = none) :
    row unit = front unit ++ List.replicate (gap unit) ' ' := by
  rw [row_eq, unmarked]
  simp

theorem gap_congr (text : Utf16.decodeLossy unit.source = Utf16.decodeLossy other.source) :
    gap unit = gap other := by
  rw [gap, gap, shownSource, shownSource, text]

theorem rows_congr (same : entry unit = entry other) :
    row unit = row other ∧ lastRow unit = lastRow other := by
  obtain ⟨start, stop, code, text, half⟩ := Entry.mk.inj same
  have shown : shownChar unit = shownChar other := by
    simp only [shownChar, TracedUnit.char?, code]
  have fronts : front unit = front other := by
    rw [front, front, stop, start, code, shown, shownSource, shownSource, text]
  have rows : row unit = row other := by rw [row_eq, row_eq, fronts, gap_congr text, half]
  exact ⟨rows, by simp only [lastRow, rows, fronts, half]⟩

theorem front_append_inj {rest more : List Char} (same : front unit ++ rest = front other ++ more) :
    unit.start = other.start ∧
      unit.start + unit.source.length = other.start + other.source.length ∧
      unit.code = other.code ∧ Utf16.decodeLossy unit.source = Utf16.decodeLossy other.source ∧
      rest = more := by
  have digits (number : Nat) : ' ' ∉ decimal number :=
    fun member => absurd (isDigit_of_mem_decimal member) (by decide)
  have codes (number : Nat) : ' ' ∉ hexadecimalPadded 4 number :=
    not_mem_hexadecimalPadded (by decide) 4 number
  simp only [front, List.append_assoc, List.cons_append, List.nil_append] at same
  obtain ⟨start, same⟩ := padEnd_append_inj (digits _) (digits _) same
  obtain ⟨stop, same⟩ := padEnd_append_inj (digits _) (digits _) same
  obtain ⟨code, same⟩ := append_space_inj (codes _) (codes _) (List.append_cancel_left same)
  have code := UInt16.toNat_inj.1 (hexadecimalPadded_inj code)
  -- The character is told by the code, so its column ends at the same place in both lines.
  have shown : shownChar unit = shownChar other := by
    simp only [shownChar, TracedUnit.char?, code]
  rw [shown] at same
  replace same := List.append_cancel_left (List.cons.inj same).2
  obtain ⟨text, after⟩ := quoted_append_inj (Or.inr rfl) (List.cons.inj same).2
  exact ⟨decimal_inj start, decimal_inj stop, code, String.toList_inj.1 text, after⟩

theorem half_inj {first second : Option Half}
    (same : ((first.map Half.name).getD "").toList = ((second.map Half.name).getD "").toList) :
    first = second := by
  revert same
  rcases first with _ | _ | _ <;> rcases second with _ | _ | _ <;> decide

theorem entry_of_row (same : row unit = row other) : entry unit = entry other := by
  rw [row_eq, row_eq] at same
  obtain ⟨start, stop, code, text, after⟩ := front_append_inj same
  rw [gap_congr text] at after
  have half := half_inj (List.append_cancel_left after)
  rw [entry, entry, stop, start, code, text, half]

theorem front_ne_row (unit other : TracedUnit) : front unit ≠ row other := by
  intro same
  rw [row_eq, ← List.append_nil (front unit)] at same
  have after := (front_append_inj same).2.2.2.2
  rw [gap, List.replicate_succ, List.cons_append] at after
  exact nomatch after

theorem entry_of_lastRow (same : lastRow unit = lastRow other) : entry unit = entry other := by
  unfold lastRow at same
  split at same
  next unmarked =>
    split at same
    next bare =>
      have fronts : front unit ++ [] = front other ++ [] := by rw [same]
      obtain ⟨start, stop, code, text, -⟩ := front_append_inj fronts
      rw [entry, entry, stop, start, code, text, unmarked, bare]
    next => exact absurd same (front_ne_row unit other)
  next =>
    split at same
    next => exact absurd same.symm (front_ne_row other unit)
    next => exact entry_of_row same

theorem lineFeed_not_mem_row (unit : TracedUnit) : '\n' ∉ row unit := by
  have digits (number : Nat) : '\n' ∉ decimal number :=
    fun member => absurd (isDigit_of_mem_decimal member) (by decide)
  have codes (number : Nat) : '\n' ∉ hexadecimalPadded 4 number :=
    not_mem_hexadecimalPadded (by decide) 4 number
  have padded {width : Nat} {chars : List Char} (inside : '\n' ∉ chars) :
      '\n' ∉ padEnd width chars := by
    simp [padEnd_eq, inside]
  have char : '\n' ∉ shownChar unit := by
    unfold shownChar
    split
    next => exact lineFeed_not_mem_quoted (Or.inl rfl) _
    next => decide
  have source : '\n' ∉ quoted '\"' unit.sourceText.toList :=
    lineFeed_not_mem_quoted (Or.inr rfl) _
  have half : '\n' ∉ ((unit.half.map Half.name).getD "").toList := by
    rcases unit.half with _ | _ | _ <;> decide
  simp [row, padded, digits, codes, char, source, half]

theorem lineFeed_not_mem_lastRow (unit : TracedUnit) : '\n' ∉ lastRow unit := by
  have whole := lineFeed_not_mem_row unit
  unfold lastRow
  split
  next =>
    rw [row_eq] at whole
    exact fun member => whole (List.mem_append_left _ member)
  next => exact whole

theorem exists_solid (unit : TracedUnit) :
    ∃ chars last, lastRow unit = chars ++ [last] ∧ isBlank last = false := by
  have joined (first second : List Char) (last : Char) :
      first ++ (second ++ [last]) = (first ++ second) ++ [last] := (List.append_assoc ..).symm
  unfold lastRow
  split
  next => exact ⟨_, '\"', joined _ _ _, by decide⟩
  next half marked =>
    rw [row_eq, marked]
    rw [← List.append_assoc]
    cases half with
    | high => exact ⟨_, 'h', joined _ ['h', 'i', 'g'] 'h', by decide⟩
    | low => exact ⟨_, 'w', joined _ ['l', 'o'] 'w', by decide⟩

theorem row_eq_lastRow (unit : TracedUnit) : ∃ count,
    row unit = lastRow unit ++ List.replicate count ' ' ∧
      (count ≠ 0 → lastRow unit = front unit) := by
  unfold lastRow
  split
  next unmarked => exact ⟨gap unit, row_of_unmarked unmarked, fun _ => rfl⟩
  next => exact ⟨0, (List.append_nil _).symm, fun some => absurd rfl some⟩

end

theorem intercalate_concat (first last : List Char) (others : List (List Char)) :
    ['\n'].intercalate (first :: others ++ [last]) =
      ['\n'].intercalate (first :: others) ++ '\n' :: last := by
  induction others generalizing first with
  | nil => simp
  | cons next others ih =>
    rw [List.cons_append, List.cons_append, List.intercalate_cons_cons, ← List.cons_append, ih,
      List.intercalate_cons_cons]
    simp only [List.append_assoc]

theorem lines_concat (before : List TracedUnit) (last : TracedUnit) :
    lines (before ++ [last]) = before.map row ++ [lastRow last] := by
  simp [lines]

theorem length_lines (units : List TracedUnit) : (lines units).length = units.length := by
  rcases List.eq_nil_or_concat' units with rfl | ⟨before, last, rfl⟩
  · rfl
  · simp [lines_concat]

def uncut (units : List TracedUnit) : List Char :=
  ['\n'].intercalate (header.toList :: units.map row)

/-- The table ends where its last line does, and what is cut is the padding of that line. -/
theorem grid_and_uncut (units : List TracedUnit) :
    grid units = ['\n'].intercalate (header.toList :: lines units) ∧
      ∃ count, uncut units = grid units ++ List.replicate count ' ' ∧
        (count ≠ 0 → ∃ last, units.getLast? = some last ∧
          row last = front last ++ List.replicate count ' ') := by
  rcases List.eq_nil_or_concat' units with rfl | ⟨before, last, rfl⟩
  · refine ⟨by decide, 0, by decide, fun some => absurd rfl some⟩
  · obtain ⟨count, whole, cut⟩ := row_eq_lastRow last
    obtain ⟨chars, final, ending, solid⟩ := exists_solid last
    have rows : uncut (before ++ [last]) =
        ['\n'].intercalate (header.toList :: lines (before ++ [last])) ++
          List.replicate count ' ' := by
      rw [uncut, lines_concat, List.map_append, List.map_singleton, ← List.cons_append,
        intercalate_concat, ← List.cons_append, intercalate_concat, whole, List.append_assoc,
        List.cons_append]
    have kept : grid (before ++ [last]) =
        ['\n'].intercalate (header.toList :: lines (before ++ [last])) := by
      have joined (start : List Char) :
          start ++ '\n' :: (chars ++ [final]) = (start ++ '\n' :: chars) ++ [final] := by
        simp
      rw [grid, ← uncut, rows, trimEnd_append_spaces, lines_concat, ← List.cons_append,
        intercalate_concat, ending, joined, trimEnd_append_singleton solid]
    refine ⟨kept, count, kept ▸ rows, fun some => ⟨last, List.getLast?_concat, ?_⟩⟩
    rw [whole, cut some]

theorem lineFeed_not_mem_lines {units : List TracedUnit} {line : List Char}
    (member : line ∈ lines units) : '\n' ∉ line := by
  rcases List.eq_nil_or_concat' units with rfl | ⟨before, last, rfl⟩
  · exact absurd member List.not_mem_nil
  · rw [lines_concat] at member
    rcases List.mem_append.1 member with inner | final
    · obtain ⟨unit, -, rfl⟩ := List.mem_map.1 inner
      exact lineFeed_not_mem_row unit
    · rw [List.mem_singleton.1 final]
      exact lineFeed_not_mem_lastRow last

theorem entries_of_lines {units others : List TracedUnit} (same : lines units = lines others) :
    units.map entry = others.map entry := by
  have lengths := congrArg List.length same
  rw [length_lines, length_lines] at lengths
  rcases List.eq_nil_or_concat' units with rfl | ⟨before, last, rfl⟩
  · rw [List.length_eq_zero_iff.1 lengths.symm]
  · rcases List.eq_nil_or_concat' others with rfl | ⟨front, final, rfl⟩
    · simp at lengths
    · rw [lines_concat, lines_concat] at same
      obtain ⟨rows, ends⟩ := List.append_inj' same rfl
      have entries := TracedUnit.map_eq_of_map_eq entry_of_row rows
      have last := entry_of_lastRow (List.cons.inj ends).1
      rw [List.map_append, List.map_append, List.map_singleton, List.map_singleton, entries, last]

theorem lines_of_entries {units others : List TracedUnit}
    (same : units.map entry = others.map entry) : lines units = lines others := by
  have rows := TracedUnit.map_eq_of_map_eq (fun same => (rows_congr same).1) same
  have ends := TracedUnit.map_eq_of_map_eq (fun same => (rows_congr same).2) same
  rw [lines, lines, List.map_dropLast, List.map_dropLast, rows]
  have finals := congrArg List.getLast? ends
  rw [List.getLast?_map, List.getLast?_map] at finals
  rw [← Option.toList_map, ← Option.toList_map, finals]

theorem summary_string (literal : StringLiteral) : (summary (.string literal)).toList =
    "codePointEscape: ".toList ++ ((truth literal.features.codePointEscape).toList ++
      (", lineTerminator: ".toList ++ ((truth literal.features.lineTerminator).toList ++
        (", octalEscape: ".toList ++ (truth literal.features.octalEscape).toList)))) := by
  change String.toList (_ ++ _ ++ _ ++ _ ++ _ ++ _) = _
  simp only [String.toList_append, List.append_assoc]

theorem summary_template (inner : Template) :
    (summary (.template inner)).toList = "kind: ".toList ++ inner.kind.name.toList :=
  String.toList_append

theorem lineFeed_not_mem_summary (token : Token) : '\n' ∉ (summary token).toList := by
  have labels : '\n' ∉ "codePointEscape: ".toList ∧ '\n' ∉ ", lineTerminator: ".toList ∧
      '\n' ∉ ", octalEscape: ".toList ∧ '\n' ∉ "kind: ".toList := by simp
  have truths (value : Bool) : '\n' ∉ (truth value).toList := by cases value <;> decide
  have kinds (kind : TemplateKind) : '\n' ∉ kind.name.toList := by cases kind <;> decide
  cases token with
  | string literal =>
    rw [summary_string]
    simp only [List.mem_append, truths, labels.1, labels.2.1, labels.2.2.1, or_self,
      not_false_eq_true]
  | template inner =>
    rw [summary_template]
    simp only [List.mem_append, kinds, labels.2.2.2, or_self, not_false_eq_true]

theorem summary_string_ne_template (literal : StringLiteral) (inner : Template) :
    summary (.string literal) ≠ summary (.template inner) := by
  intro same
  have lists := congrArg String.toList same
  rw [summary_string, summary_template] at lists
  simp at lists

theorem summary_eq_iff (token other : Token) :
    summary token = summary other ↔ token.note = other.note := by
  cases token with
  | string literal =>
    cases other with
    | string another =>
      refine ⟨fun same => ?_, fun same => ?_⟩
      · have lists := congrArg String.toList same
        rw [summary_string, summary_string] at lists
        obtain ⟨code, lists⟩ := truth_append_inj (List.append_cancel_left lists)
        obtain ⟨line, lists⟩ := truth_append_inj (List.append_cancel_left lists)
        have octal := (truth_append_inj (congrArg (· ++ []) (List.append_cancel_left lists))).1
        have features : literal.features = another.features :=
          Features.mk.injEq .. ▸ ⟨code, line, octal⟩
        exact congrArg Sum.inl features
      · have features : literal.features = another.features := Sum.inl.inj same
        rw [← String.toList_inj, summary_string, summary_string, features]
    | template inner => exact ⟨fun same => absurd same (summary_string_ne_template _ _), nofun⟩
  | template inner =>
    cases other with
    | string another => exact ⟨fun same => absurd same.symm (summary_string_ne_template _ _), nofun⟩
    | template another =>
      refine ⟨fun same => ?_, fun same => ?_⟩
      · have lists := congrArg String.toList same
        rw [summary_template, summary_template] at lists
        have names := String.toList_inj.1 (List.append_cancel_left lists)
        exact congrArg Sum.inr (TemplateKind.name_inj names)
      · have kinds : inner.kind = another.kind := Sum.inr.inj same
        rw [← String.toList_inj, summary_template, summary_template, kinds]

theorem table_eq (token : Token) : token.table.toList =
    ['\n'].intercalate (header.toList :: lines token.units ++ [(summary token).toList]) := by
  rw [intercalate_concat, ← (grid_and_uncut token.units).1, Token.table]
  simp only [String.toList_append, String.toList_ofList, List.append_assoc]
  rfl

theorem splitOn_table (token : Token) : token.table.toList.splitOn '\n' =
    header.toList :: lines token.units ++ [(summary token).toList] := by
  rw [table_eq, List.splitOn_intercalate]
  · intro line member
    rcases List.mem_append.1 member with above | below
    · rcases List.mem_cons.1 above with rfl | inner
      · decide
      · exact lineFeed_not_mem_lines inner
    · rw [List.mem_singleton.1 below]
      exact lineFeed_not_mem_summary token
  · exact List.cons_ne_nil _ _

/-- A table has a line for the header, one for each unit and one for the rest, and no text of a
token adds a line or hides one. All that is cut at the end of the rows is the padding after the
source of the last unit. Tokens with the same table have units for which the rows say the same, and
the same features or kind. -/
theorem table_unforgeable (token : Token) :
    (token.render .table).toList.splitOn '\n' =
        "START  END    CODE    CHAR      SOURCE          SURROGATE".toList ::
          lines token.units ++ [(summary token).toList] ∧
      ((token.render .table).toList.splitOn '\n').length = token.units.length + 2 ∧
      (∃ count, uncut token.units = grid token.units ++ List.replicate count ' ' ∧
        (count ≠ 0 → ∃ last, token.units.getLast? = some last ∧
          row last = front last ++ List.replicate count ' ')) ∧
      ∀ other : Token, token.render .table = other.render .table ↔
        token.units.map entry = other.units.map entry ∧ token.note = other.note := by
  refine ⟨splitOn_table token, ?_, (grid_and_uncut token.units).2,
    fun other => ⟨fun same => ?_, ?_⟩⟩
  · rw [Token.render, splitOn_table]
    simp [length_lines]
  · have split := congrArg (fun text => text.toList.splitOn '\n') same
    simp only [Token.render, splitOn_table] at split
    obtain ⟨above, below⟩ := List.append_inj' split rfl
    have shown := String.toList_inj.1 (List.cons.inj below).1
    exact ⟨entries_of_lines (List.cons.inj above).2, (summary_eq_iff token other).1 shown⟩
  · rintro ⟨entries, note⟩
    rw [Token.render, Token.render, ← String.toList_inj, table_eq, table_eq,
      lines_of_entries entries, (summary_eq_iff token other).2 note]

end Token.Table

end Unquote
