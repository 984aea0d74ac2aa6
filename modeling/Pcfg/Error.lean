import Pcfg.Grammar.Basic
import Pcfg.RuleFile.Rule
import Pcfg.Decimal.Notation
import Pcfg.Text.Quoted
/-!
# Errors

Everything that stops a conversion or the reading of a rule file, and the message that reports
it. A line that is refused is shown in its quoted form (`Text.quote`), with its number counted
from one; a probability total is shown in positional notation.
-/

namespace Pcfg

/-- Why a conversion or the reading of a rule file stopped. -/
inductive Error where
  /-- A listing line that could not be read. -/
  | malformedLine (lineNo : Nat) (line : String) (reason : Listing.LineError)
  /-- A listing line whose rules broke the rule of a preterminal tag. -/
  | preterminalConflict (lineNo : Nat) (conflict : Grammar.Conflict)
  /-- A rule file line that could not be read. -/
  | malformedRule (lineNo : Nat) (line : String) (reason : RuleFile.RuleError)
  /-- A tag whose probabilities do not sum to one. -/
  | invalidDistribution (tag : String) (total : Binary64)
  /-- A line that is not valid UTF-8. -/
  | invalidText
deriving DecidableEq, Repr

/-- The message that reports an error. -/
def Error.message : Error → String
  | .malformedLine n line r =>
    "malformed line " ++ toString n ++ " (" ++ r.reason ++ "): " ++ Text.quote line
  | .preterminalConflict n c =>
    "preterminal conflict on line " ++ toString n ++ ": " ++ c.preterminal ++
      " already rewrites to [" ++ c.existingText ++ "], cannot add [" ++ c.requestedText ++ "]"
  | .malformedRule n line r =>
    "malformed rule on line " ++ toString n ++ " (" ++ r.reason ++ "): " ++ Text.quote line
  | .invalidDistribution tag total =>
    "probabilities for " ++ tag ++ " sum to " ++ total.toPositionalString ++ ", expected 1"
  | .invalidText => "stream did not contain valid UTF-8"

end Pcfg
