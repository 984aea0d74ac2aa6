import Pcfg.Error
import Pcfg.Text.Lines
/-!
# Reading and checking a rule file

`RuleFile.read` reads every line of a rule file in order and stops at the first error: a line
that is not UTF-8, or a line that is refused (`RuleFile.Rule.ofLine?`). Lines that are blank
after trimming are skipped, but still counted for the line numbers.

`RuleFile.check` sums the probabilities of each tag, in the order the rules come and starting
from `+0`, in binary64 arithmetic. The tags are taken in the order of their first rule, and the
first tag whose total is farther than `1e-6` from one is reported. A NaN total is not farther
from one than anything, so it passes.
-/

namespace Pcfg

namespace RuleFile

/-- Reads rule file lines, the first of them numbered `n`. -/
def readFrom : Nat → List (Option String) → Except Error (List Rule)
  | _, [] => .ok []
  | _, none :: _ => .error .invalidText
  | n, some l :: ls =>
    if Text.trimChars l.toList = [] then readFrom (n + 1) ls
    else
      match Rule.ofLine? l with
      | .error r => .error (.malformedRule n l r)
      | .ok r => (readFrom (n + 1) ls).map (r :: ·)

/-- Reads a rule file given as bytes. -/
def read (bs : ByteArray) : Except Error (List Rule) := readFrom 1 (Text.lines bs)

/-- Adds a probability to its tag's running total; a new tag starts from `+0`. -/
def addToTotal : List (String × Binary64) → String → Binary64 → List (String × Binary64)
  | [], tag, p => [(tag, Binary64.zero false + p)]
  | (t, s) :: rest, tag, p =>
    if t = tag then (t, s + p) :: rest else (t, s) :: addToTotal rest tag p

/-- Each tag's total probability, tags in the order of their first rule. -/
def totals (rules : List Rule) : List (String × Binary64) :=
  rules.foldl (fun acc r => addToTotal acc r.production.lhs r.prob) []

/-- How far from one a total may be: `1e-6`, rounded. -/
def tolerance : Binary64 := Decimal.toBinary64 ⟨false, 1, -6⟩

/-- The total is farther from one than the tolerance. -/
def Unbalanced (total : Binary64) : Prop := tolerance.lt (total - Binary64.one).abs = true

instance : DecidablePred Unbalanced := fun t =>
  inferInstanceAs (Decidable (tolerance.lt (t - Binary64.one).abs = true))

/-- Checks that every tag's probabilities sum to one. -/
def check (rules : List Rule) : Except Error Unit :=
  match (totals rules).find? (fun t => decide (Unbalanced t.2)) with
  | some (tag, total) => .error (.invalidDistribution tag total)
  | none => .ok ()

end RuleFile

end Pcfg
