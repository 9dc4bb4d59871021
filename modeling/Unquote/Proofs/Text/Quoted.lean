import Unquote.Proofs.Text.Numeral
import Unquote.Text.Quoted

/-! Quoted text read back. A backslash tells by the character after it what it stands for, and any
other character stands for itself, so the text between two marks is known from its quoted form and
it is known where it ends. Nothing in it ends the line. -/

namespace Unquote.Text

/-- The character that quoted text begins with, and what follows it. -/
def unquoteChar : List Char → Option (Char × List Char)
  | '\\' :: '0' :: rest => some ('\x00', rest)
  | '\\' :: 't' :: rest => some ('\t', rest)
  | '\\' :: 'r' :: rest => some ('\r', rest)
  | '\\' :: 'n' :: rest => some ('\n', rest)
  | '\\' :: 'u' :: '\x7b' :: rest =>
    some (.ofNat (hexNumber (rest.takeWhile (· != '\x7d'))), (rest.dropWhile (· != '\x7d')).drop 1)
  | '\\' :: char :: rest => some (char, rest)
  | char :: rest => some (char, rest)
  | [] => none

def IsMark (mark : Char) : Prop := mark = '\'' ∨ mark = '\"'

section

variable {mark : Char}

theorem unquoteChar_number (number : Nat) (rest : List Char) :
    unquoteChar ('\\' :: 'u' :: '\x7b' :: (hexadecimal number ++ '\x7d' :: rest)) =
      some (.ofNat number, rest) := by
  have digits : ∀ char ∈ hexadecimal number, (char != '\x7d') = true := by
    intro char member
    have other : '\x7d' ∉ hexadecimal number := not_mem_hexadecimal (by decide) number
    exact bne_iff_ne.2 fun same => other (same ▸ member)
  rw [unquoteChar, List.takeWhile_append_of_pos digits, List.dropWhile_append_of_pos digits,
    List.takeWhile_cons_of_neg (by decide), List.dropWhile_cons_of_neg (by decide),
    List.append_nil, hexNumber_hexadecimal]
  rfl

theorem unquoteChar_bare {char : Char} (bare : char ≠ '\\') (rest : List Char) :
    unquoteChar (char :: rest) = some (char, rest) := by
  rw [unquoteChar]
  all_goals
    intros
    exact absurd ‹char = _› bare

def lettered : List Char := ['\x00', '\t', '\r', '\n', '\\']

theorem quoteChar_of_unlettered (mark : Char) {char : Char} (unlettered : char ∉ lettered) :
    quoteChar mark char = if char = mark then ['\\', mark]
      else if isGlyphless char then ['\\', 'u', '\x7b'] ++ hexadecimal char.toNat ++ ['\x7d']
      else [char] := by
  simp only [lettered, List.mem_cons, List.not_mem_nil, or_false, not_or] at unlettered
  obtain ⟨null, tab, carriage, line, backslash⟩ := unlettered
  rw [quoteChar, if_neg null, if_neg tab, if_neg carriage, if_neg line, if_neg backslash]

theorem mem_lettered {char : Char} (member : char ∈ lettered) :
    char = '\x00' ∨ char = '\t' ∨ char = '\r' ∨ char = '\n' ∨ char = '\\' := by
  simpa only [lettered, List.mem_cons, List.not_mem_nil, or_false] using member

/-- A character is read back from its quoted form, whatever follows. -/
theorem unquoteChar_quoteChar (isMark : IsMark mark) (char : Char) (rest : List Char) :
    unquoteChar (quoteChar mark char ++ rest) = some (char, rest) := by
  by_cases member : char ∈ lettered
  · rcases mem_lettered member with rfl | rfl | rfl | rfl | rfl <;> rfl
  · rw [quoteChar_of_unlettered mark member]
    split
    next same =>
      rw [same]
      rcases isMark with rfl | rfl <;> rfl
    split
    next =>
      simp only [List.cons_append, List.nil_append, List.append_assoc]
      rw [unquoteChar_number, Char.ofNat_toNat]
    next =>
      refine unquoteChar_bare (fun same => ?_) rest
      rw [same] at member
      exact member (by decide)

theorem quoteChar_append_ne (isMark : IsMark mark) (char : Char) (rest other : List Char) :
    quoteChar mark char ++ rest ≠ mark :: other := by
  intro same
  have read := unquoteChar_quoteChar isMark char rest
  have bare : unquoteChar (mark :: other) = some (mark, other) := by
    rcases isMark with rfl | rfl <;> rfl
  rw [same, bare] at read
  obtain ⟨rfl, rfl⟩ := Prod.mk.inj (Option.some.inj read)
  have escaped : quoteChar mark mark = ['\\', mark] := by
    rcases isMark with rfl | rfl <;> rfl
  rw [escaped] at same
  have first := (List.cons.inj same).1
  rcases isMark with rfl | rfl <;> exact absurd first (by decide)

/-- What stands between two marks is known, and so is what follows them. -/
theorem quoted_append_inj (isMark : IsMark mark) {chars others rest more : List Char}
    (same : quoted mark chars ++ rest = quoted mark others ++ more) :
    chars = others ∧ rest = more := by
  simp only [quoted, List.cons_append, List.append_assoc, List.nil_append] at same
  replace same := (List.cons.inj same).2
  induction chars generalizing others with
  | nil =>
    cases others with
    | nil => exact ⟨rfl, (List.cons.inj same).2⟩
    | cons other others =>
      rw [List.flatMap_cons, List.append_assoc] at same
      exact absurd same.symm (quoteChar_append_ne isMark other _ _)
  | cons char chars ih =>
    rw [List.flatMap_cons, List.append_assoc] at same
    cases others with
    | nil => exact absurd same (quoteChar_append_ne isMark char _ _)
    | cons other others =>
      rw [List.flatMap_cons, List.append_assoc] at same
      have read := congrArg unquoteChar same
      rw [unquoteChar_quoteChar isMark, unquoteChar_quoteChar isMark] at read
      obtain ⟨rfl, tails⟩ := Prod.mk.inj (Option.some.inj read)
      obtain ⟨rfl, after⟩ := ih tails
      exact ⟨rfl, after⟩

theorem lineFeed_not_mem_quoteChar (isMark : IsMark mark) (char : Char) :
    '\n' ∉ quoteChar mark char := by
  have apart : '\n' ≠ mark := by
    rcases isMark with rfl | rfl <;> decide
  have digits : '\n' ∉ hexadecimal char.toNat := not_mem_hexadecimal (by decide) _
  by_cases member : char ∈ lettered
  · rcases isMark with rfl | rfl <;>
      rcases mem_lettered member with rfl | rfl | rfl | rfl | rfl <;> decide
  · rw [quoteChar_of_unlettered mark member]
    split
    next => simp [apart]
    split
    next => simp [digits]
    next =>
      intro same
      rw [← List.mem_singleton.1 same] at member
      exact member (by decide)

theorem lineFeed_not_mem_quoted (isMark : IsMark mark) (chars : List Char) :
    '\n' ∉ quoted mark chars := by
  have apart : '\n' ≠ mark := by
    rcases isMark with rfl | rfl <;> decide
  have inside : '\n' ∉ chars.flatMap (quoteChar mark) := by
    intro member
    obtain ⟨char, -, shown⟩ := List.mem_flatMap.1 member
    exact lineFeed_not_mem_quoteChar isMark char shown
  simp [quoted, apart, inside]

end

end Unquote.Text
