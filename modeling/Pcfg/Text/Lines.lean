/-!
# Lines of a byte stream

A stream of bytes is cut into lines at each line feed. The line feed ends its line and is not
part of it, and a carriage return just before it is dropped too. Bytes after the last line feed
form a last line, kept as they are (a carriage return included); a stream that ends with a line
feed has no empty line after it, and an empty stream has no lines. Each line is then read as
UTF-8 on its own, so that a bad byte spoils only the line that holds it.
-/

namespace Pcfg

namespace Text

/-- The line without one carriage return at its end, from the line reversed. -/
def dropReturn : List UInt8 → List UInt8
  | 13 :: r => r.reverse
  | r => r.reverse

/-- The lines of `bs` after the open line `w` (kept reversed). -/
def linesFrom : List UInt8 → List UInt8 → List (List UInt8)
  | [], w => if w = [] then [] else [w.reverse]
  | b :: bs, w => if b = 10 then dropReturn w :: linesFrom bs [] else linesFrom bs (b :: w)

/-- The lines of a byte stream, each without its line end. -/
def byteLines (bs : List UInt8) : List (List UInt8) := linesFrom bs []

/-- The lines of a byte stream, each read as UTF-8: `none` for a line that is not valid UTF-8. -/
def lines (bs : ByteArray) : List (Option String) :=
  (byteLines bs.toList).map fun l => String.fromUTF8? ⟨l.toArray⟩

end Text

end Pcfg
