import Unquote.Proofs.Grammar.Item
import Unquote.Proofs.Token.Opened

/-! What each fault of a token says, and where it lies. The text before a fault is a token that
only wants its end, or, where something follows a token, that token. -/

namespace Unquote

namespace Token

variable {kind : TokenKind} {text : List CodeUnit} {pos : Nat}

theorem parse_malformed_iff {expected : TokenKind} :
    parse kind text = .error ⟨.malformedDelimiter expected, pos⟩ ↔
      expected = kind ∧ pos = 0 ∧ ∀ unit, text.head? = some unit → ¬Opens kind unit := by
  rcases opened_or_malformed kind text with found | ⟨unopened, malformed⟩
  · obtain ⟨opening, rest, scanner, rfl, opened⟩ := found
    rw [parse_of_opened opened, map_eq_error_iff]
    apply Iff.intro
    · intro read
      exact absurd read (Body.Rules.read_ne_malformed rest expected pos)
    · intro unopened
      exact absurd (opens_iff.2 ⟨scanner, opened⟩) (unopened.2.2 opening rfl)
  · rw [malformed]
    apply Iff.intro
    · intro same
      cases same
      exact ⟨rfl, rfl, unopened⟩
    · intro located
      rw [located.1, located.2.1]

theorem parse_unterminated_iff (choice : Closing) :
    parse kind text = .error ⟨.unterminated, pos⟩ ↔
      pos = 0 ∧ ∃ opening, text.head? = some opening ∧ Opens kind opening ∧
        Accepts kind (text ++ closer opening choice kind) := by
  have formed : Fault.unterminated ≠ .malformedDelimiter kind := nofun
  rw [parse_eq_fault_iff formed]
  apply Iff.intro
  · intro found
    obtain ⟨opening, rest, scanner, rfl, opened, read⟩ := found
    obtain ⟨rfl, -⟩ := Body.Rules.read_eq_unterminated_iff.1 read
    obtain ⟨mark, same⟩ := scanner_closer opened choice
    have finished := (Body.Rules.unterminated_iff_closed mark).1 read
    rw [same] at finished
    exact ⟨rfl, opening, rfl, opens_iff.2 ⟨scanner, opened⟩,
      accepts_iff.2 ⟨opening, _, scanner, rfl, opened, finished⟩⟩
  · intro found
    obtain ⟨rfl, opening, first, -, accepted⟩ := found
    obtain ⟨rest, rfl⟩ := List.head?_eq_some_iff.1 first
    obtain ⟨other, _, scanner, split, opened, finished⟩ := accepts_iff.1 accepted
    cases split
    obtain ⟨mark, same⟩ := scanner_closer opened choice
    rw [← same] at finished
    exact ⟨opening, rest, scanner, rfl, opened,
      (Body.Rules.unterminated_iff_closed mark).2 finished⟩

theorem parse_trailing_iff :
    parse kind text = .error ⟨.trailingBackslash, pos⟩ ↔
      ∃ first unit rest, text = first ++ unit :: rest ∧ pos = first.length ∧
        unit = .backslash ∧ rest = [] ∧ Unfinished kind first := by
  have formed : Fault.trailingBackslash ≠ .malformedDelimiter kind := nofun
  rw [parse_eq_fault_iff formed]
  apply Iff.intro
  · intro found
    obtain ⟨opening, units, scanner, rfl, opened, read⟩ := found
    obtain ⟨before, rfl, rfl, unfinished⟩ := Body.Rules.trailing_iff.1 read
    exact ⟨opening :: before, .backslash, [], rfl, Nat.add_comm .., rfl, rfl,
      unfinished_iff.2 ⟨opening, before, scanner, rfl, opened, unfinished⟩⟩
  · intro found
    obtain ⟨first, unit, rest, rfl, rfl, rfl, rfl, unfinished⟩ := found
    obtain ⟨opening, before, scanner, rfl, opened, read⟩ := unfinished_iff.1 unfinished
    exact ⟨opening, _, scanner, rfl, opened,
      Body.Rules.trailing_iff.2 ⟨before, rfl, Nat.add_comm .., read⟩⟩

theorem parse_invalid_iff :
    parse kind text = .error ⟨.invalidEscape, pos⟩ ↔
      ∃ first unit rest, text = first ++ unit :: rest ∧ pos = first.length + 1 ∧
        unit = .backslash ∧ rest ≠ [] ∧ Unfinished kind first ∧
        ∀ escape after, rest = escape.body ++ after → escape.Fits after.head? →
          ¬kind.legacy.Permits escape := by
  have formed : Fault.invalidEscape ≠ .malformedDelimiter kind := nofun
  rw [parse_eq_fault_iff formed]
  apply Iff.intro
  · intro found
    obtain ⟨opening, units, scanner, rfl, opened, read⟩ := found
    obtain ⟨before, rest, rfl, more, rfl, unfinished, unread⟩ := Body.Rules.invalid_iff.1 read
    rw [scanner_legacy opened] at unread
    exact ⟨opening :: before, .backslash, rest, rfl, by simp; omega, rfl, more,
      unfinished_iff.2 ⟨opening, before, scanner, rfl, opened, unfinished⟩, unread⟩
  · intro found
    obtain ⟨first, unit, rest, rfl, rfl, rfl, more, unfinished, unread⟩ := found
    obtain ⟨opening, before, scanner, rfl, opened, read⟩ := unfinished_iff.1 unfinished
    rw [← scanner_legacy opened] at unread
    exact ⟨opening, _, scanner, rfl, opened,
      Body.Rules.invalid_iff.2 ⟨before, rest, rfl, more, by simp; omega, read, unread⟩⟩

theorem parse_lineTermination_cut (failed : parse kind text = .error ⟨.lineTermination, pos⟩) :
    ∃ first unit rest, text = first ++ unit :: rest ∧ pos = first.length ∧ kind = .string ∧
      (unit = .lineFeed ∨ unit = .carriageReturn) ∧ Unfinished kind first := by
  have formed : Fault.lineTermination ≠ .malformedDelimiter kind := nofun
  obtain ⟨opening, units, scanner, rfl, opened, read⟩ := (parse_eq_fault_iff formed).1 failed
  obtain ⟨before, unit, rest, rfl, rfl, refused, unfinished⟩ := Body.Rules.lineTermination_cut read
  obtain ⟨quoted, breaks⟩ := scanner_refuses opened refused
  exact ⟨opening :: before, unit, rest, rfl, Nat.add_comm .., quoted, breaks,
    unfinished_iff.2 ⟨opening, before, scanner, rfl, opened, unfinished⟩⟩

theorem parse_pastEnd_iff :
    parse kind text = .error ⟨.pastEnd, pos⟩ ↔
      ∃ first unit rest, text = first ++ unit :: rest ∧ pos = first.length ∧
        Accepts kind first := by
  have formed : Fault.pastEnd ≠ .malformedDelimiter kind := nofun
  rw [parse_eq_fault_iff formed]
  apply Iff.intro
  · intro found
    obtain ⟨opening, units, scanner, rfl, opened, read⟩ := found
    obtain ⟨before, unit, rest, rfl, rfl, finished⟩ := Body.Rules.pastEnd_iff.1 read
    exact ⟨opening :: before, unit, rest, rfl, Nat.add_comm ..,
      accepts_iff.2 ⟨opening, before, scanner, rfl, opened, finished⟩⟩
  · intro found
    obtain ⟨first, unit, rest, rfl, rfl, accepted⟩ := found
    obtain ⟨opening, before, scanner, rfl, opened, finished⟩ := accepts_iff.1 accepted
    exact ⟨opening, _, scanner, rfl, opened,
      Body.Rules.pastEnd_iff.2 ⟨before, unit, rest, rfl, Nat.add_comm .., finished⟩⟩

def EscapeItem (kind : TokenKind) (next : Option CodeUnit) (item : Grammar.Item) : Prop :=
  Grammar.PlainEscape next item ∨ kind = .string ∧ Grammar.LegacyEscape next item

theorem escapeItem_iff {next : Option CodeUnit} {item : Grammar.Item} :
    EscapeItem kind next item ↔
      ∃ escape : Escape, Grammar.escapeItem escape = item ∧ escape.Fits next ∧
        kind.legacy.Permits escape := by
  apply Iff.intro
  · intro allowed
    rcases allowed with plain | ⟨rfl, legacy⟩
    · obtain ⟨escape, fits, modern, same⟩ := plain.exists_escape
      exact ⟨escape, same, fits, fun old => absurd old (by simp [modern])⟩
    · obtain ⟨escape, fits, -, same⟩ := legacy.exists_escape
      exact ⟨escape, same, fits, fun _ => rfl⟩
  · intro found
    obtain ⟨escape, rfl, fits, permitted⟩ := found
    cases old : escape.isLegacy with
    | false => exact Or.inl (Grammar.plainEscape_of_fits fits old)
    | true =>
      have quoted : kind = .string := by
        cases kind with
        | string => rfl
        | template => exact absurd permitted (Legacy.not_permits old)
      exact Or.inr ⟨quoted, Grammar.legacyEscape_of_fits fits old⟩

/-- No escape is read at a backslash just where the grammar has none that begins there. -/
theorem none_permitted_iff {rest : List CodeUnit} :
    (∀ escape after, rest = escape.body ++ after → escape.Fits after.head? →
      ¬kind.legacy.Permits escape) ↔
    ∀ item after, .backslash :: rest = item.source ++ after → ¬EscapeItem kind after.head? item := by
  apply Iff.intro
  · intro unread item after split allowed
    obtain ⟨escape, rfl, fits, permitted⟩ := escapeItem_iff.1 allowed
    exact unread escape after (List.cons.inj split).2 fits permitted
  · intro unread escape after split fits permitted
    exact unread (Grammar.escapeItem escape) after (congrArg (.backslash :: ·) split)
      (escapeItem_iff.2 ⟨escape, rfl, fits, permitted⟩)

section

variable {units : List CodeUnit} {index : Nat}
  {Holds : List CodeUnit → CodeUnit → List CodeUnit → Prop}

theorem exists_cut_iff :
    (∃ first unit rest, units = first ++ unit :: rest ∧ index = first.length ∧
      Holds first unit rest) ↔
    ∃ unit, units[index]? = some unit ∧
      Holds (units.take index) unit (units.drop (index + 1)) := by
  apply Iff.intro
  · intro found
    obtain ⟨first, unit, rest, rfl, rfl, holds⟩ := found
    refine ⟨unit, ?_, ?_⟩
    · rw [List.getElem?_append_right (Nat.le_refl _), Nat.sub_self, List.getElem?_cons_zero]
    · rw [List.take_append_length, List.drop_length_add_append, List.drop_one, List.tail_cons]
      exact holds
  · intro found
    obtain ⟨unit, present, holds⟩ := found
    obtain ⟨inside, rfl⟩ := List.getElem?_eq_some_iff.1 present
    refine ⟨_, _, _, ?_, ?_, holds⟩
    · rw [← List.drop_eq_getElem_cons, List.take_append_drop]
    · exact (List.length_take_of_le (Nat.le_of_lt inside)).symm

end

/-- What an error of each fault says of the text. A text is cut where the error lies, and what comes
before is read on its own. -/
structure ErrorsLocated (kind : TokenKind) (text : List CodeUnit) : Prop where
  malformed : ∀ expected pos, parse kind text = .error ⟨.malformedDelimiter expected, pos⟩ ↔
    expected = kind ∧ pos = 0 ∧ ∀ unit, text.head? = some unit → ¬Opens kind unit
  unterminated : ∀ choice pos, parse kind text = .error ⟨.unterminated, pos⟩ ↔
    pos = 0 ∧ ∃ opening, text.head? = some opening ∧ Opens kind opening ∧
      Accepts kind (text ++ closer opening choice kind)
  trailing : ∀ pos, parse kind text = .error ⟨.trailingBackslash, pos⟩ ↔
    text.length = pos + 1 ∧ text[pos]? = some .backslash ∧ Unfinished kind (text.take pos)
  pastEnd : ∀ pos, parse kind text = .error ⟨.pastEnd, pos⟩ ↔
    pos < text.length ∧ Accepts kind (text.take pos)
  lineTermination : ∀ pos, parse kind text = .error ⟨.lineTermination, pos⟩ →
    kind = .string ∧ Unfinished kind (text.take pos) ∧
      ∃ unit, text[pos]? = some unit ∧ (unit = .lineFeed ∨ unit = .carriageReturn)
  invalid : ∀ pos, parse kind text = .error ⟨.invalidEscape, pos + 1⟩ ↔
    pos + 1 < text.length ∧ text[pos]? = some .backslash ∧ Unfinished kind (text.take pos) ∧
      ∀ item after, text.drop pos = item.source ++ after → ¬EscapeItem kind after.head? item
  invalid_announced : ∀ pos, parse kind text = .error ⟨.invalidEscape, pos⟩ →
    0 < pos ∧ ∃ unit, text[pos]? = some unit ∧
      (unit = 0x78 ∨ unit = 0x75 ∨ kind = .template ∧ unit.isDigit)
  inside : ∀ fault pos, parse kind text = .error ⟨fault, pos⟩ → pos < max 1 text.length

theorem located_trailing :
    parse kind text = .error ⟨.trailingBackslash, pos⟩ ↔
      text.length = pos + 1 ∧ text[pos]? = some .backslash ∧ Unfinished kind (text.take pos) := by
  rw [parse_trailing_iff, exists_cut_iff]
  apply Iff.intro
  · intro found
    obtain ⟨unit, present, rfl, ended, unfinished⟩ := found
    have inside := (List.getElem?_eq_some_iff.1 present).1
    have short := List.drop_eq_nil_iff.1 ended
    exact ⟨by omega, present, unfinished⟩
  · intro located
    obtain ⟨last, present, unfinished⟩ := located
    exact ⟨.backslash, present, rfl, List.drop_eq_nil_of_le (Nat.le_of_eq last), unfinished⟩

theorem located_pastEnd :
    parse kind text = .error ⟨.pastEnd, pos⟩ ↔
      pos < text.length ∧ Accepts kind (text.take pos) := by
  rw [parse_pastEnd_iff, exists_cut_iff]
  apply Iff.intro
  · intro found
    obtain ⟨unit, present, accepted⟩ := found
    exact ⟨(List.getElem?_eq_some_iff.1 present).1, accepted⟩
  · intro located
    exact ⟨_, List.getElem?_eq_getElem located.1, located.2⟩

theorem located_lineTermination (failed : parse kind text = .error ⟨.lineTermination, pos⟩) :
    kind = .string ∧ Unfinished kind (text.take pos) ∧
      ∃ unit, text[pos]? = some unit ∧ (unit = .lineFeed ∨ unit = .carriageReturn) := by
  obtain ⟨unit, present, quoted, breaks, unfinished⟩ :=
    exists_cut_iff.1 (parse_lineTermination_cut failed)
  exact ⟨quoted, unfinished, unit, present, breaks⟩

theorem located_invalid :
    parse kind text = .error ⟨.invalidEscape, pos + 1⟩ ↔
      pos + 1 < text.length ∧ text[pos]? = some .backslash ∧ Unfinished kind (text.take pos) ∧
        ∀ item after, text.drop pos = item.source ++ after →
          ¬EscapeItem kind after.head? item := by
  rw [parse_invalid_iff]
  simp only [Nat.add_right_cancel_iff]
  rw [exists_cut_iff]
  apply Iff.intro
  · intro found
    obtain ⟨unit, present, rfl, more, unfinished, unread⟩ := found
    obtain ⟨inside, same⟩ := List.getElem?_eq_some_iff.1 present
    refine ⟨Nat.lt_of_not_le (mt List.drop_eq_nil_of_le more), present, unfinished, ?_⟩
    rw [List.drop_eq_getElem_cons inside, same]
    exact none_permitted_iff.1 unread
  · intro located
    obtain ⟨further, present, unfinished, unread⟩ := located
    obtain ⟨inside, same⟩ := List.getElem?_eq_some_iff.1 present
    rw [List.drop_eq_getElem_cons inside, same] at unread
    exact ⟨.backslash, present, rfl, mt List.drop_eq_nil_iff.1 (Nat.not_le_of_lt further),
      unfinished, none_permitted_iff.2 unread⟩

theorem invalid_announced (failed : parse kind text = .error ⟨.invalidEscape, pos⟩) :
    0 < pos ∧ ∃ unit, text[pos]? = some unit ∧
      (unit = 0x78 ∨ unit = 0x75 ∨ kind = .template ∧ unit.isDigit) := by
  obtain ⟨first, -, rest, rfl, rfl, rfl, more, -, unread⟩ := parse_invalid_iff.1 failed
  obtain ⟨unit, further, rfl⟩ := List.exists_cons_of_ne_nil more
  refine ⟨Nat.zero_lt_succ _, unit, ?_, ?_⟩
  · rw [List.getElem?_append_right (Nat.le_add_right ..), Nat.add_sub_cancel_left,
      List.getElem?_cons_succ, List.getElem?_cons_zero]
  · rcases Escape.announced_of_none_permitted unread with hex | unicode | ⟨refused, digit⟩
    · exact Or.inl hex
    · exact Or.inr (Or.inl unicode)
    · have template : kind = .template := by
        cases kind with
        | string => contradiction
        | template => rfl
      exact Or.inr (Or.inr ⟨template, digit⟩)

theorem lt_length_of_getElem?_eq_some {unit : CodeUnit} (present : text[pos]? = some unit) :
    pos < max 1 text.length :=
  Nat.lt_of_lt_of_le (List.getElem?_eq_some_iff.1 present).1 (Nat.le_max_right ..)

theorem error_inside {fault : Fault} (failed : parse kind text = .error ⟨fault, pos⟩) :
    pos < max 1 text.length := by
  cases fault with
  | malformedDelimiter expected =>
    have start := (parse_malformed_iff.1 failed).2.1
    omega
  | unterminated =>
    have start := ((parse_unterminated_iff .backtick).1 failed).1
    omega
  | trailingBackslash => exact lt_length_of_getElem?_eq_some (located_trailing.1 failed).2.1
  | invalidEscape =>
    obtain ⟨-, unit, present, -⟩ := invalid_announced failed
    exact lt_length_of_getElem?_eq_some present
  | lineTermination =>
    obtain ⟨-, -, unit, present, -⟩ := located_lineTermination failed
    exact lt_length_of_getElem?_eq_some present
  | pastEnd =>
    have further := (located_pastEnd.1 failed).1
    omega

/-- Every error lies at the first construct that cannot be read. -/
theorem errors_located (kind : TokenKind) (text : List CodeUnit) : ErrorsLocated kind text where
  malformed _ _ := parse_malformed_iff
  unterminated choice _ := parse_unterminated_iff choice
  trailing _ := located_trailing
  pastEnd _ := located_pastEnd
  lineTermination _ := located_lineTermination
  invalid _ := located_invalid
  invalid_announced _ := invalid_announced
  inside _ _ := error_inside

end Token

end Unquote
