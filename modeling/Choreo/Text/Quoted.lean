import Choreo.Text.Printable

/-!
# Quoted text

A text in double quotes, in which every character can be told from its neighbours: quotes and
backslashes are escaped, the usual controls have letters, and whatever is not printable is written
by its number in hexadecimal.
-/

namespace Choreo.Text

/-- The number of a character in lower-case hexadecimal, without leading zeros. -/
def hexadecimal (c : Char) : List Char := Nat.toDigits 16 c.toNat

def quoteChar (c : Char) : List Char :=
  if c = '\x00' then ['\\', '0']
  else if c = '\t' then ['\\', 't']
  else if c = '\r' then ['\\', 'r']
  else if c = '\n' then ['\\', 'n']
  else if c = '"' || c = '\\' then ['\\', c]
  else if isPrintable c then [c]
  else ['\\', 'u', '\x7b'] ++ hexadecimal c ++ ['\x7d']

def quoted (text : String) : String :=
  String.ofList ('"' :: text.toList.flatMap quoteChar ++ ['"'])

end Choreo.Text
