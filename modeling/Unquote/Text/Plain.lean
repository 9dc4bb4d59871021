/-! Numbers and truth values in text, and text in columns. Hexadecimal is in lower case. -/

namespace Unquote.Text

def decimal (number : Nat) : List Char := Nat.toDigits 10 number

def hexadecimal (number : Nat) : List Char := Nat.toDigits 16 number

def hexadecimalPadded (width number : Nat) : List Char :=
  (hexadecimal number).leftpad width '0'

def truth (value : Bool) : String := if value then "true" else "false"

def padEnd (width : Nat) (chars : List Char) : List Char := chars.rightpad width ' '

end Unquote.Text
