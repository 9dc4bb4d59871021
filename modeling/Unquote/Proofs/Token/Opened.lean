import Unquote.Proofs.Body.Cut
import Unquote.Proofs.Token.Scanner

/-! Texts with an opening delimiter. What is said of the body of a token carries over to the token,
for either kind at once. -/

namespace Unquote

def TokenKind.legacy : TokenKind → Legacy
  | .string => .allowed
  | .template => .refused

namespace Token

variable {kind : TokenKind} {text : List CodeUnit}

def Opens : TokenKind → CodeUnit → Prop
  | .string, unit => unit = .doubleQuote ∨ unit = .singleQuote
  | .template, unit => unit = .backtick ∨ unit = .closeBrace

def closer (opening : CodeUnit) (choice : Closing) : TokenKind → List CodeUnit
  | .string => [opening]
  | .template => choice.units

def Accepts (kind : TokenKind) (text : List CodeUnit) : Prop :=
  ∃ token, parse kind text = .ok token

/-- The text is a token that only wants its end. -/
def Unfinished (kind : TokenKind) (text : List CodeUnit) : Prop :=
  parse kind text = .error ⟨.unterminated, 0⟩

theorem opens_iff {unit : CodeUnit} :
    Opens kind unit ↔ ∃ scanner, scanner? kind unit = some scanner := by
  cases kind with
  | string =>
    simp only [Opens, scanner?, Option.map_eq_some_iff, Quote.ofUnit?_eq_some_iff]
    apply Iff.intro
    · intro opens
      rcases opens with double | single
      · exact ⟨_, .double, double, rfl⟩
      · exact ⟨_, .single, single, rfl⟩
    · intro found
      obtain ⟨-, quote, same, -⟩ := found
      cases quote with
      | double => exact Or.inl same
      | single => exact Or.inr same
  | template =>
    simp only [Opens, scanner?, Option.map_eq_some_iff, Opening.ofUnit?_eq_some_iff]
    apply Iff.intro
    · intro opens
      rcases opens with backtick | closeBrace
      · exact ⟨_, .backtick, backtick, rfl⟩
      · exact ⟨_, .closeBrace, closeBrace, rfl⟩
    · intro found
      obtain ⟨-, opening, same, -⟩ := found
      cases opening with
      | backtick => exact Or.inl same
      | closeBrace => exact Or.inr same

section

variable {opening : CodeUnit} {scanner : Scanner}

theorem scanner_legacy (opened : scanner? kind opening = some scanner) :
    scanner.rules.legacy = kind.legacy := by
  cases kind with
  | string =>
    obtain ⟨quote, -, rfl⟩ := Option.map_eq_some_iff.1 opened
    rfl
  | template =>
    obtain ⟨first, -, rfl⟩ := Option.map_eq_some_iff.1 opened
    rfl

theorem scanner_refuses (opened : scanner? kind opening = some scanner) {unit : CodeUnit}
    (refused : scanner.rules.Refuses unit) :
    kind = .string ∧ (unit = .lineFeed ∨ unit = .carriageReturn) := by
  cases kind with
  | string =>
    obtain ⟨quote, -, rfl⟩ := Option.map_eq_some_iff.1 opened
    exact ⟨rfl, refused⟩
  | template =>
    obtain ⟨first, -, rfl⟩ := Option.map_eq_some_iff.1 opened
    exact False.elim refused

theorem scanner_closer (opened : scanner? kind opening = some scanner) (choice : Closing) :
    ∃ mark, scanner.rules.delimiter mark = closer opening choice kind := by
  cases kind with
  | string =>
    obtain ⟨quote, found, rfl⟩ := Option.map_eq_some_iff.1 opened
    refine ⟨(), ?_⟩
    rw [closer, Quote.ofUnit?_eq_some_iff.1 found]
    rfl
  | template =>
    obtain ⟨first, -, rfl⟩ := Option.map_eq_some_iff.1 opened
    exact ⟨choice, rfl⟩

end

theorem opened_or_malformed (kind : TokenKind) (text : List CodeUnit) :
    (∃ opening rest scanner, text = opening :: rest ∧ scanner? kind opening = some scanner) ∨
      (∀ unit, text.head? = some unit → ¬Opens kind unit) ∧
        parse kind text = .error ⟨.malformedDelimiter kind, 0⟩ := by
  cases text with
  | nil => exact Or.inr ⟨nofun, parse_nil kind⟩
  | cons opening rest =>
    cases opened : scanner? kind opening with
    | none =>
      refine Or.inr ⟨?_, parse_of_unopened opened rest⟩
      intro unit first opens
      cases first
      obtain ⟨scanner, found⟩ := opens_iff.1 opens
      rw [opened] at found
      contradiction
    | some scanner => exact Or.inl ⟨opening, rest, scanner, rfl, opened⟩

theorem parse_eq_fault_iff {fault : Fault} {pos : Nat}
    (formed : fault ≠ .malformedDelimiter kind) :
    parse kind text = .error ⟨fault, pos⟩ ↔
      ∃ opening rest scanner, text = opening :: rest ∧ scanner? kind opening = some scanner ∧
        Body.read scanner.rules.step rest = .error ⟨fault, pos⟩ := by
  apply Iff.intro
  · intro failed
    rcases opened_or_malformed kind text with found | ⟨-, malformed⟩
    · obtain ⟨opening, rest, scanner, rfl, opened⟩ := found
      rw [parse_of_opened opened, map_eq_error_iff] at failed
      exact ⟨opening, rest, scanner, rfl, opened, failed⟩
    · rw [malformed] at failed
      cases failed
      contradiction
  · intro found
    obtain ⟨opening, rest, scanner, rfl, opened, failed⟩ := found
    rw [parse_of_opened opened, map_eq_error_iff]
    exact failed

theorem unfinished_iff :
    Unfinished kind text ↔
      ∃ opening rest scanner, text = opening :: rest ∧ scanner? kind opening = some scanner ∧
        Body.read scanner.rules.step rest = .error ⟨.unterminated, 0⟩ :=
  parse_eq_fault_iff nofun

theorem accepts_iff :
    Accepts kind text ↔
      ∃ opening rest scanner, text = opening :: rest ∧ scanner? kind opening = some scanner ∧
        ∃ body, Body.read scanner.rules.step rest = .ok body := by
  apply Iff.intro
  · intro accepted
    obtain ⟨token, read⟩ := accepted
    rcases opened_or_malformed kind text with found | ⟨-, malformed⟩
    · obtain ⟨opening, rest, scanner, rfl, opened⟩ := found
      rw [parse_of_opened opened] at read
      obtain ⟨body, bodyRead, -⟩ := map_eq_ok_iff.1 read
      exact ⟨opening, rest, scanner, rfl, opened, body, bodyRead⟩
    · rw [malformed] at read
      contradiction
  · intro found
    obtain ⟨opening, rest, scanner, rfl, opened, body, bodyRead⟩ := found
    refine ⟨scanner.token body, ?_⟩
    rw [parse_of_opened opened, bodyRead]
    rfl

end Token

end Unquote
