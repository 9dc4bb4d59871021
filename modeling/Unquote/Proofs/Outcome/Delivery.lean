import Unquote.Outcome

/-! The ways in which a token comes to the program. A word is taken as it stands, and standard input
is left alone. Standard input may end with the line break that ends its last line, and loses that one
line break and nothing more. What comes of a token does not depend on the way it came. -/

namespace Unquote

section

variable {text : String}

theorem dropLineBreak_crlf (text : String) : dropLineBreak (text ++ "\r\n") = text := by
  have ends : (text ++ "\r\n").toList.reverse = '\n' :: '\r' :: text.toList.reverse := by simp
  rw [dropLineBreak, ends]
  simp

theorem dropLineBreak_lf (single : text.toList.getLast? ≠ some '\r') :
    dropLineBreak (text ++ "\n") = text := by
  have ends : (text ++ "\n").toList.reverse = '\n' :: text.toList.reverse := by simp
  have first : text.toList.reverse.head? ≠ some '\r' := by rwa [List.head?_reverse]
  rw [dropLineBreak, ends]
  split
  next rest same =>
    rw [(List.cons.inj same).2] at first
    exact absurd rfl first
  next rest _ same =>
    rw [← (List.cons.inj same).2, List.reverse_reverse, String.ofList_toList]
  next _ unbroken => exact absurd rfl (unbroken _)

theorem dropLineBreak_of_unbroken (unbroken : text.toList.getLast? ≠ some '\n') :
    dropLineBreak text = text := by
  have first : text.toList.reverse.head? ≠ some '\n' := by rwa [List.head?_reverse]
  unfold dropLineBreak
  split
  next rest same =>
    rw [same] at first
    exact absurd rfl first
  next rest _ same =>
    rw [same] at first
    exact absurd rfl first
  next => rfl

theorem exists_lineBreak (text : String) :
    ∃ ending ∈ ["", "\n", "\r\n"], text = dropLineBreak text ++ ending := by
  by_cases broken : text.toList.getLast? = some '\n'
  · obtain ⟨chars, line⟩ := List.getLast?_eq_some_iff.1 broken
    have split : text = .ofList chars ++ "\n" := by
      rw [← String.toList_inj, line]
      simp
    by_cases double : chars.getLast? = some '\r'
    · obtain ⟨rest, line⟩ := List.getLast?_eq_some_iff.1 double
      have whole : text = .ofList rest ++ "\r\n" := by
        rw [split, line, ← String.toList_inj]
        simp
      refine ⟨"\r\n", by simp, ?_⟩
      rw [whole, dropLineBreak_crlf]
    · refine ⟨"\n", by simp, ?_⟩
      rw [split, dropLineBreak_lf]
      rwa [String.toList_ofList]
  · refine ⟨"", by simp, ?_⟩
    rw [dropLineBreak_of_unbroken broken]
    simp

end

namespace StandardInput

theorem text_of_utf8 (line : String) : text (.ok line.toUTF8) = .ok line := by
  have read : String.fromUTF8? line.toUTF8 = some line := dif_pos line.isValidUTF8
  rw [text, read]

theorem text_of_garbled {bytes : ByteArray} (garbled : ∀ line : String, bytes ≠ line.toUTF8) :
    text (.ok bytes) = .error .unreadable := by
  have unread : String.fromUTF8? bytes = none := by
    apply dif_neg
    intro valid
    exact garbled (.fromUTF8 bytes valid) rfl
  rw [text, unread]

end StandardInput

namespace Outcome

/-- What has to come of a token: its text in the format, or the report on what is wrong with it. -/
structure Answers (kind : TokenKind) (format : Format) (text : String) (outcome : Outcome) :
    Prop where
  accepted : ∀ token, Token.parse kind (Utf16.encode text) = .ok token →
    outcome.exitCode = 0 ∧ outcome.stdout = token.render format ++ "\n" ∧ outcome.report? = none
  rejected : ∀ error, Token.parse kind (Utf16.encode text) = .error error →
    outcome.exitCode = 1 ∧ outcome.stdout = "" ∧
      outcome.report? = some ("CU" ++ toString error.fault.code ++ ": " ++ error.fault.message ++
        " at position " ++ toString error.pos)

theorem report_rejected (error : SyntaxError) : (rejected error).report? =
    some ("CU" ++ toString error.fault.code ++ ": " ++ error.fault.message ++ " at position " ++
      toString error.pos) := by
  have digits (number : Nat) : String.ofList (Text.decimal number) = toString number := rfl
  rw [report?, SyntaxError.label, SyntaxError.title, digits, digits]
  simp only [String.append_assoc]

theorem answers_ofText (kind : TokenKind) (format : Format) (text : String) :
    Answers kind format text (ofText kind format text) := by
  apply Answers.mk
  · intro token read
    rw [ofText, read]
    exact ⟨rfl, rfl, rfl⟩
  · intro error failed
    rw [ofText, failed]
    exact ⟨rfl, rfl, report_rejected error⟩

def ofInput (kind : TokenKind) (format : Format) (input : StandardInput) : Outcome :=
  match input.text with
  | .ok line => ofText kind format (dropLineBreak line)
  | .error unread => unread

def Piped (token : Option String) : Prop := token = none ∨ token = some "-"

section

variable {m : Type → Type} [Monad m] {kind : TokenKind} {format : Format} {token : Option String}

theorem readToken_given {word : String} (other : word ≠ "-") (input : m StandardInput) :
    readToken input (some word) = pure (.ok word) := by
  unfold readToken
  split
  next absent => contradiction
  next same => exact absurd (Option.some.inj same) other
  next found => rw [Option.some.inj found]

theorem readToken_piped (piped : Piped token) (input : m StandardInput) :
    readToken input token = input >>= fun held => pure (held.text.map dropLineBreak) := by
  rcases piped with rfl | rfl <;> rfl

variable [LawfulMonad m]

theorem run_given {word : String} (other : word ≠ "-") (input : m StandardInput) :
    run input kind format (some word) = pure (ofText kind format word) := by
  rw [run, readToken_given other, pure_bind]

/-- Standard input is read once, and nothing else is done with it. -/
theorem run_piped (piped : Piped token) (input : m StandardInput) :
    run input kind format token = ofInput kind format <$> input := by
  rw [run, readToken_piped piped, bind_assoc, ← bind_pure_comp]
  apply bind_congr
  intro held
  rw [pure_bind, ofInput]
  cases held.text with
  | ok line => rfl
  | error unread => rfl

end

/-- A run where standard input holds this, and what it leaves there. -/
def runOn (input : StandardInput) (kind : TokenKind) (format : Format) (token : Option String) :
    Outcome × StandardInput :=
  (run StandardInput.readAll kind format token).run input

section

variable {kind : TokenKind} {format : Format} {token : Option String}

theorem runOn_given {word : String} (other : word ≠ "-") (input : StandardInput) :
    runOn input kind format (some word) = (ofText kind format word, input) := by
  rw [runOn, run_given other]
  rfl

theorem runOn_piped (piped : Piped token) (input : StandardInput) :
    runOn input kind format token = (ofInput kind format input, input.map fun _ => .empty) := by
  rw [runOn, run_piped piped]
  rfl

theorem runOn_utf8 (piped : Piped token) (line : String) :
    runOn (.ok line.toUTF8) kind format token =
      (ofText kind format (dropLineBreak line), .ok .empty) := by
  rw [runOn_piped piped, ofInput, StandardInput.text_of_utf8]
  rfl

end

/-- One outcome for a token, however it comes. -/
structure Delivered (kind : TokenKind) (format : Format) (text : String) (outcome : Outcome) :
    Prop where
  answers : Answers kind format text outcome
  /-- The word is taken whatever standard input is, and without an attempt to read it. -/
  given : ∀ (m : Type → Type) [Monad m] [LawfulMonad m] (input : m StandardInput),
    run input kind format (some text) = pure outcome
  left : ∀ input, runOn input kind format (some text) = (outcome, input)
  crlf : ∀ token, Piped token →
    runOn (.ok (text ++ "\r\n").toUTF8) kind format token = (outcome, .ok .empty)
  lf : ∀ token, Piped token → text.toList.getLast? ≠ some '\r' →
    runOn (.ok (text ++ "\n").toUTF8) kind format token = (outcome, .ok .empty)
  bare : ∀ token, Piped token → text.toList.getLast? ≠ some '\n' →
    runOn (.ok text.toUTF8) kind format token = (outcome, .ok .empty)

structure Fails (cause : String) (outcome : Outcome) : Prop where
  exitCode : outcome.exitCode = 2
  stdout : outcome.stdout = ""
  report : outcome.report? = some ("error: Failed to read token from stdin: " ++ cause)

/-- What comes of standard input in place of a word, whatever it holds. -/
structure Taken (kind : TokenKind) (format : Format) (token : Option String) : Prop where
  /-- All of it is read, and one line break at most is dropped. -/
  trimmed : ∀ line : String, ∃ kept, ∃ ending ∈ ["", "\n", "\r\n"], line = kept ++ ending ∧
    ∃ outcome, Answers kind format kept outcome ∧
      runOn (.ok line.toUTF8) kind format token = (outcome, .ok .empty)
  garbled : ∀ bytes, (∀ line : String, bytes ≠ line.toUTF8) → ∃ outcome,
    runOn (.ok bytes) kind format token = (outcome, .ok .empty) ∧
      Fails "stream did not contain valid UTF-8" outcome
  failing : ∀ cause, ∃ outcome,
    runOn (.error cause) kind format token = (outcome, .error cause) ∧ Fails cause outcome

theorem taken {token : Option String} (piped : Piped token) (kind : TokenKind) (format : Format) :
    Taken kind format token where
  trimmed line := by
    obtain ⟨ending, known, split⟩ := exists_lineBreak line
    exact ⟨dropLineBreak line, ending, known, split, _, answers_ofText kind format _,
      runOn_utf8 piped line⟩
  garbled bytes garbled := by
    refine ⟨unreadable, ?_, ⟨rfl, rfl, rfl⟩⟩
    rw [runOn_piped piped, ofInput, StandardInput.text_of_garbled garbled]
    rfl
  failing cause := ⟨broken cause, runOn_piped piped (.error cause), ⟨rfl, rfl, rfl⟩⟩

/-- What comes of a token given as a word also comes of it piped in, with a line break after it or,
if it does not end with one, without. -/
theorem given_or_piped (kind : TokenKind) (format : Format) {text : String} (other : text ≠ "-") :
    (∃ outcome, Delivered kind format text outcome) ∧
      ∀ token, Piped token → Taken kind format token := by
  refine ⟨⟨ofText kind format text, ?_⟩, fun token piped => taken piped kind format⟩
  constructor
  case answers => exact answers_ofText kind format text
  case given => exact fun m _ _ input => run_given other input
  case left => exact runOn_given other
  case crlf =>
    intro token piped
    rw [runOn_utf8 piped, dropLineBreak_crlf]
  case lf =>
    intro token piped single
    rw [runOn_utf8 piped, dropLineBreak_lf single]
  case bare =>
    intro token piped unbroken
    rw [runOn_utf8 piped, dropLineBreak_of_unbroken unbroken]

/-- A token that looks like an option and ends with a carriage return is kept whole both ways. What
is not UTF-8 is left alone beside it. -/
theorem given_or_piped_hyphenReturn :
    "-\r" ≠ "-" ∧
      ∃ outcome, outcome.exitCode = 1 ∧
        runOn (.ok ⟨#[0xFF]⟩) .string .json (some "-\r") = (outcome, .ok ⟨#[0xFF]⟩) ∧
        runOn (.ok ("-\r" ++ "\r\n").toUTF8) .string .json (some "-") = (outcome, .ok .empty) ∧
        runOn (.ok "-\r".toUTF8) .string .json none = (outcome, .ok .empty) := by
  have other : "-\r" ≠ "-" := by decide
  obtain ⟨⟨outcome, delivered⟩, -⟩ := given_or_piped .string .json other
  have failed : Token.parse .string (Utf16.encode "-\r") =
      .error ⟨.malformedDelimiter .string, 0⟩ := rfl
  refine ⟨other, outcome, (delivered.answers.rejected _ failed).1, delivered.left _,
    delivered.crlf _ (Or.inr rfl), delivered.bare _ (Or.inl rfl) ?_⟩
  decide

end Outcome

end Unquote
