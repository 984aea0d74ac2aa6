import Pcfg.Text.Ranges
/-!
# Blanks and the words of a line

A blank is a character of the Unicode White_Space property: the ASCII tab, line feed, vertical
tab, form feed, carriage return and space, the next-line control `U+0085`, the no-break spaces
and the typographic spaces of the General Punctuation block, the line and paragraph separators,
the Ogham space mark and the ideographic space. Zero-width characters such as `U+200B` and
`U+FEFF` are not blanks.

The words of a text are its maximal runs of characters that are not blanks, in order.
`Text.words` finds them by one scan that carries the open word; `Text.trimChars` drops blanks
at both ends of a line's characters.
-/

namespace Pcfg

namespace Text

/-- The code points of the White_Space property. -/
def blankRanges : Ranges := [
  (0x9, 0xD),
  (0x20, 0x20),
  (0x85, 0x85),
  (0xA0, 0xA0),
  (0x1680, 0x1680),
  (0x2000, 0x200A),
  (0x2028, 0x2029),
  (0x202F, 0x202F),
  (0x205F, 0x205F),
  (0x3000, 0x3000)]

/-- The character is a blank: it has the White_Space property. -/
def isBlank (c : Char) : Bool := blankRanges.contains c.toNat

/-- The words of `cs` after the open word `w` (kept reversed): each maximal run of
characters that are not blanks, in order. -/
def wordsFrom : List Char → List Char → List (List Char)
  | [], w => if w = [] then [] else [w.reverse]
  | c :: cs, w =>
    if isBlank c then (if w = [] then wordsFrom cs [] else w.reverse :: wordsFrom cs [])
    else wordsFrom cs (c :: w)

/-- The maximal runs of characters that are not blanks, in order. -/
def words (s : String) : List String := (wordsFrom s.toList []).map String.ofList

/-- The characters without the blanks at both ends. -/
def trimChars (cs : List Char) : List Char :=
  ((cs.dropWhile isBlank).reverse.dropWhile isBlank).reverse

/-- Every character that core counts as whitespace is a blank. -/
theorem isBlank_of_isWhitespace {c : Char} (h : c.isWhitespace = true) : isBlank c = true := by
  simp only [Char.isWhitespace, Bool.or_eq_true, decide_eq_true_eq] at h
  rcases h with ((h | h) | h) | h <;> subst h <;> decide

end Text

end Pcfg
