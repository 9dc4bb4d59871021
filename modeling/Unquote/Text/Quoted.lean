import Unquote.Text.Glyphless
import Unquote.Text.Plain

/-! Text on one line between marks, with every character that cannot be seen, or would end the
text, written as an escape. -/

namespace Unquote.Text

def quoteChar (mark char : Char) : List Char :=
  if char = '\x00' then ['\\', '0']
  else if char = '\t' then ['\\', 't']
  else if char = '\r' then ['\\', 'r']
  else if char = '\n' then ['\\', 'n']
  else if char = '\\' then ['\\', '\\']
  else if char = mark then ['\\', mark]
  else if isGlyphless char then
    ['\\', 'u', '\x7b'] ++ hexadecimal char.toNat ++ ['\x7d']
  else [char]

def quoted (mark : Char) (chars : List Char) : List Char :=
  mark :: chars.flatMap (quoteChar mark) ++ [mark]

theorem quoted_ne_nil (mark : Char) (chars : List Char) : quoted mark chars ≠ [] :=
  List.cons_ne_nil _ _

end Unquote.Text
