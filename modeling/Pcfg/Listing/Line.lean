import Pcfg.Text.Blank
/-!
# Lines of a grammar listing

A grammar listing has one rule per line, as words separated by blanks:

* `TAG --> CHILD …`, a plain rule; or
* `A B TAG --> CHILD …`, a rule after two parameters of a Dirichlet prior, recognised by a first
  word that looks like a number.

The word after the tag is the arrow and is not checked. A word looks like a number when it is
nonempty and made of ASCII digits, points, `e`, `E`, `+` and `-` only (`Listing.NumberLike`);
whether it is a well-formed number does not matter here.

A line is refused when its first word looks like a number and its second does not, and
otherwise when it has no child. `Listing.Line.ofString?` depends on the words of the line alone.
-/

namespace Pcfg

namespace Listing

/-- A character that may appear in a number: an ASCII digit, a point, `e`, `E`, `+` or `-`. -/
def numberChar (c : Char) : Bool :=
  c.isDigit || c = '.' || c = 'e' || c = 'E' || c = '+' || c = '-'

/-- The word is nonempty and made of number characters only. -/
def NumberLike (t : String) : Prop := t.toList ≠ [] ∧ ∀ c ∈ t.toList, numberChar c = true

/-- The check that decides `NumberLike`. -/
def isNumberLike (t : String) : Bool := !t.toList.isEmpty && t.toList.all numberChar

theorem isNumberLike_iff (t : String) : isNumberLike t = true ↔ NumberLike t := by
  simp [isNumberLike, NumberLike, List.all_eq_true]

instance : DecidablePred NumberLike := fun t => decidable_of_iff _ (isNumberLike_iff t)

/-- Whether a line carries the two parameters of a Dirichlet prior before its tag. -/
inductive Form where
  /-- `TAG --> CHILD …` -/
  | plain
  /-- `A B TAG --> CHILD …` -/
  | dirichlet
deriving DecidableEq, Repr

/-- A line of a listing, read. -/
structure Line where
  /-- Whether the line carries prior parameters. -/
  form : Form
  /-- The tag that the rule expands. -/
  tag : String
  /-- The children, at least one, as written. -/
  children : List String
deriving DecidableEq, Repr

/-- Why a listing line is refused. -/
inductive LineError where
  /-- The first word looks like a number and the second does not. -/
  | secondPriorNotNumeric
  /-- The line has no child after the tag and the arrow. -/
  | tooFewWords
deriving DecidableEq, Repr

/-- The reason as it is reported. -/
def LineError.reason : LineError → String
  | .secondPriorNotNumeric => "second Dirichlet prior parameter is not numeric"
  | .tooFewWords => "wrong number of tokens"

/-- Reads `TAG ARROW CHILD …`. -/
def Line.ofTagWords (form : Form) : List String → Except LineError Line
  | tag :: _ :: c :: cs => .ok ⟨form, tag, c :: cs⟩
  | _ => .error .tooFewWords

/-- Reads the words of a listing line. -/
def Line.ofWords? : List String → Except LineError Line
  | [] => .error .tooFewWords
  | p :: rest =>
    if NumberLike p then
      match rest with
      | q :: ws =>
        if NumberLike q then Line.ofTagWords .dirichlet ws else .error .secondPriorNotNumeric
      | [] => .error .secondPriorNotNumeric
    else Line.ofTagWords .plain (p :: rest)

/-- Reads a listing line. -/
def Line.ofString? (s : String) : Except LineError Line := Line.ofWords? (Text.words s)

end Listing

end Pcfg
