import LuaTree.Text
import LuaTree.Text.Blank
import LuaTree.Text.Extending

/-!
# Quoted text

A text on one line between double quotes. Tabs, line ends, the null character, the double quote
and the backslash have short escapes; every other character that would not show, or would merge
with the one before it, is written as its number.
-/

namespace LuaTree.Text

/-- The digits of a number to base 16, in lower case, without leading zeros. -/
def hexDigits (n : Nat) : Text := Nat.toDigits 16 n

/-- A character as it stands inside quotes. -/
def escape (c : Char) : Text :=
  if c = '\x00' then ['\\', '0']
  else if c = '\t' then ['\\', 't']
  else if c = '\r' then ['\\', 'r']
  else if c = '\n' then ['\\', 'n']
  else if c = '"' then ['\\', '"']
  else if c = '\\' then ['\\', '\\']
  else if isExtending c || isBlank c then ['\\', 'u', '\x7b'] ++ hexDigits c.toNat ++ ['\x7d']
  else [c]

/-- A text between double quotes, each character escaped where needed. -/
def quote (text : Text) : Text := '"' :: text.flatMap escape ++ ['"']

end LuaTree.Text
