import Skript.Text.Extending
import Skript.Text.Graphic

/-!
# Quoted text

A text between quotes, with every character visible: the quote itself, the backslash and the
common controls have a two-character escape, and whatever could not be told from its neighbours
is written by its code point in hexadecimal.
-/
namespace Skript.Text

/-- A code point in hexadecimal, `\u` and braces around it. -/
def codePointEscape (c : Char) : List Char :=
  ['\\', 'u', '\x7b'] ++ Nat.toDigits 16 c.toNat ++ ['\x7d']

/-- How `c` is written between two `quote` characters. -/
def escape (quote c : Char) : List Char :=
  if c = '\x00' then ['\\', '0']
  else if c = '\t' then ['\\', 't']
  else if c = '\r' then ['\\', 'r']
  else if c = '\n' then ['\\', 'n']
  else if c = '\\' then ['\\', '\\']
  else if c = quote then ['\\', c]
  else if isExtending c || !isGraphic c then codePointEscape c
  else [c]

/-- The text `cs` between two `quote` characters. -/
def quoted (quote : Char) (cs : List Char) : String :=
  String.ofList (quote :: cs.flatMap (escape quote) ++ [quote])

/-- A string in double quotes. -/
def quotedString (s : String) : String :=
  quoted '"' s.toList

/-- A character in single quotes. -/
def quotedChar (c : Char) : String :=
  quoted '\'' [c]

end Skript.Text
