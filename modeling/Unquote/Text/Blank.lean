/-! White space, as the Unicode property of that name has it, and its removal from the end of a
text. -/

namespace Unquote.Text

def blankRanges : List (Nat × Nat) :=
  [(0x09, 0x0D), (0x20, 0x20), (0x85, 0x85), (0xA0, 0xA0), (0x1680, 0x1680), (0x2000, 0x200A),
    (0x2028, 0x2029), (0x202F, 0x202F), (0x205F, 0x205F), (0x3000, 0x3000)]

def isBlank (char : Char) : Bool :=
  blankRanges.any fun range => range.1 ≤ char.toNat ∧ char.toNat ≤ range.2

theorem isBlank_of_isWhitespace {char : Char} (space : char.isWhitespace) : isBlank char := by
  simp only [Char.isWhitespace, Bool.or_eq_true, decide_eq_true_eq] at space
  rcases space with ((rfl | rfl) | rfl) | rfl <;> decide

def trimEnd (chars : List Char) : List Char := (chars.reverse.dropWhile isBlank).reverse

theorem trimEnd_append_singleton {last : Char} (solid : isBlank last = false)
    (chars : List Char) : trimEnd (chars ++ [last]) = chars ++ [last] := by
  simp [trimEnd, solid]

theorem trimEnd_append_blank {last : Char} (blank : isBlank last) (chars : List Char) :
    trimEnd (chars ++ [last]) = trimEnd chars := by
  simp [trimEnd, blank]

end Unquote.Text
