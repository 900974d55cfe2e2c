import StructuralEdit.Text.Printable

/-! # Quoted texts

A text is shown between quotes. The quote is single unless the text holds a
single quote and no double one. Backslashes and the quote are escaped, line ends
and tabs have letters, other characters that do not print are written by their
code in two, four or eight hexadecimal digits.
-/
namespace StructuralEdit.Text

def hexDigit (n : Nat) : Char :=
  if n < 10 then Char.ofNat (48 + n) else Char.ofNat (87 + n)

/-- The lowest `width` hexadecimal digits of a number, highest first. -/
def hexDigits : (width : Nat) → Nat → List Char
  | 0, _ => []
  | w + 1, n => hexDigits w (n / 16) ++ [hexDigit (n % 16)]

def escapeCode (n : Nat) : List Char :=
  if n < 256 then '\\' :: 'x' :: hexDigits 2 n
  else if n < 65536 then '\\' :: 'u' :: hexDigits 4 n
  else '\\' :: 'U' :: hexDigits 8 n

def quoteChar (mark c : Char) : List Char :=
  if c == mark || c == '\\' then ['\\', c]
  else if c == '\n' then ['\\', 'n']
  else if c == '\r' then ['\\', 'r']
  else if c == '\t' then ['\\', 't']
  else if isPrintable c then [c]
  else escapeCode c.toNat

def quoteMark (t : List Char) : Char :=
  if t.contains '\'' && !t.contains '"' then '"' else '\''

def quoted (t : List Char) : List Char :=
  quoteMark t :: (t.flatMap (quoteChar (quoteMark t)) ++ [quoteMark t])

end StructuralEdit.Text
