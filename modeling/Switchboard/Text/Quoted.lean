import Switchboard.Text.Hidden

/-!
# `Switchboard.Text.Quoted`: a text quoted inside a message

Between double quotes, with a backslash before the quote and the backslash, short forms for the
null character, tab, carriage return and line feed, and every other hidden character by its number
in braces.
-/

set_option autoImplicit false

namespace Switchboard.Text

/-- The digits of a number in base sixteen, lower case and without leading zeros. -/
def hexDigits (n : Nat) : List Char := Nat.toDigits 16 n

/-- How a quoting message writes one character. -/
def quotedChar (c : Char) : List Char :=
  if c = '\x00' then ['\\', '0']
  else if c = '\t' then ['\\', 't']
  else if c = '\r' then ['\\', 'r']
  else if c = '\n' then ['\\', 'n']
  else if c = '"' then ['\\', '"']
  else if c = '\\' then ['\\', '\\']
  else if isHidden c then ['\\', 'u', '\x7b'] ++ hexDigits c.toNat ++ ['\x7d']
  else [c]

/-- The text between double quotes, on one line and without hidden characters. -/
def quoted (text : String) : String :=
  String.ofList (['"'] ++ text.toList.flatMap quotedChar ++ ['"'])

end Switchboard.Text
