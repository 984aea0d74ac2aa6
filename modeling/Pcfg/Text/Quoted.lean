import Pcfg.Text.GraphemeExtend
import Pcfg.Text.Printable
/-!
# Quoted text

The quoted form of a text shows every character unambiguously: it stands between double quotes;
the NUL, tab, carriage return and line feed, the double quote and the backslash are written as
a backslash and a letter or the character itself; a grapheme extender or a character that is
not printable is written `\u` with its code point in lowercase hexadecimal between braces; every
other character, the single quote included, stands for itself.
-/

namespace Pcfg

namespace Text

/-- The code point of `c` as an escape: backslash, `u`, and lowercase hexadecimal digits
between braces. -/
def codeEscape (c : Char) : List Char :=
  ['\\', 'u', '\x7b'] ++ Nat.toDigits 16 c.toNat ++ ['\x7d']

/-- How one character is written inside quotes. -/
def escapeChar (c : Char) : List Char :=
  if c = '\x00' then ['\\', '0']
  else if c = '\t' then ['\\', 't']
  else if c = '\r' then ['\\', 'r']
  else if c = '\n' then ['\\', 'n']
  else if c = '"' then ['\\', '"']
  else if c = '\\' then ['\\', '\\']
  else if isGraphemeExtend c || !isPrintable c then codeEscape c
  else [c]

/-- The quoted form of a text. -/
def quote (s : String) : String := String.ofList ('"' :: s.toList.flatMap escapeChar ++ ['"'])

end Text

end Pcfg
