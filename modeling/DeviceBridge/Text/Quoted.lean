import DeviceBridge.Text.Unprintable
import DeviceBridge.Text.Combining

/-!
# DeviceBridge.Text.Quoted

Text between double quotes for people to read: the quote, the backslash, line ends, tabs and NUL
are written with a backslash, and every character that would not show, or would attach to its
neighbour, is written by its code point in braces. A single quote stands for itself.
-/

namespace DeviceBridge.Text

/-- A number in lower-case hexadecimal digits, without leading zeros. -/
def hexadecimal (n : Nat) : List Char := Nat.toDigits 16 n

/-- One character as it is written between the quotes. -/
def quoteChar (c : Char) : List Char :=
  if c = '\x00' then ['\\', '0']
  else if c = '\t' then ['\\', 't']
  else if c = '\r' then ['\\', 'r']
  else if c = '\n' then ['\\', 'n']
  else if c = '\\' ∨ c = '"' then ['\\', c]
  else if isCombining c || isUnprintable c then
    '\\' :: 'u' :: '\x7b' :: hexadecimal c.toNat ++ ['\x7d']
  else [c]

/-- The text between double quotes. -/
def quoted (s : String) : String :=
  String.ofList ('"' :: s.toList.flatMap quoteChar ++ ['"'])

end DeviceBridge.Text
