import Pcfg.Error
import Pcfg.Text.Lines
import Pcfg.RuleFile.Write
/-!
# Converting a grammar listing

A conversion reads a grammar listing line by line into a grammar. Each line is read
(`Listing.Line.ofString?`), made homogeneous (`Listing.Line.homogenize`) and its rules are added
(`Grammar.addLine`): the preterminal rules first, then the line's own rule.

A refused line leaves the count of accepted lines as it was, but keeps the preterminal rules
that it added before the refusal. A line is numbered by the count of accepted lines plus one.

`Conversion.ofBytes` converts a whole listing and stops at the first error: a line that is not
UTF-8 or a refused line, whichever comes first. `Conversion.convert` also writes the grammar it
ends in as a rule file (`Grammar.toRuleFile`), with the number of rules written.
-/

namespace Pcfg

/-- The state of a conversion. -/
structure Conversion where
  /-- The rules collected so far. -/
  grammar : Grammar := {}
  /-- The number of lines accepted. -/
  lines : Nat := 0
deriving DecidableEq, Repr

namespace Conversion

/-- Feeds one listing line: the state after it, and the error when the line was refused. -/
def feed (c : Conversion) (line : String) : Conversion × Option Error :=
  let lineNo := c.lines + 1
  match Listing.Line.ofString? line with
  | .error r => (c, some (.malformedLine lineNo line r))
  | .ok l =>
    match c.grammar.addLine l.homogenize with
    | (g, some k) => ({ c with grammar := g }, some (.preterminalConflict lineNo k))
    | (g, none) => ({ grammar := g, lines := lineNo }, none)

/-- Feeds lines in order, stopping at the first error. A line given as `none` is not valid
UTF-8. -/
def feedAll : Conversion → List (Option String) → Except Error Conversion
  | c, [] => .ok c
  | _, none :: _ => .error .invalidText
  | c, some l :: ls =>
    match c.feed l with
    | (c', none) => feedAll c' ls
    | (_, some e) => .error e

/-- Converts a listing given as bytes. -/
def ofBytes (bs : ByteArray) : Except Error Conversion := feedAll {} (Text.lines bs)

/-- Converts a listing given as bytes into its rule file: the text written and the number of rule
lines in it. Nothing is written when the conversion stops at an error. -/
def convert (bs : ByteArray) : Except Error (String × Nat) :=
  (ofBytes bs).map fun c => (c.grammar.toRuleFile, c.grammar.ruleLines.length)

end Conversion

end Pcfg
