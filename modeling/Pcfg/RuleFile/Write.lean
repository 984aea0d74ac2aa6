import Pcfg.Grammar.Basic
import Pcfg.Decimal.Notation
/-!
# Writing a grammar as a rule file

A rule file has one line per rule, `TAG->[RHS] : P`, where `P` is the rule's probability in
six-place exponent notation. Every expansion of a tag gets the same probability, `1 / n` for a
tag of `n` expansions, rounded to binary64. Tags come in increasing order, and the expansions
of a tag in the order they were first added.
-/

namespace Pcfg

/-- The probability of each of `n` expansions: `1 / n`, rounded; `inf` for no expansion. -/
def uniformShare (n : Nat) : Binary64 := Binary64.one / Binary64.ofNat n

/-- The line of one rule, its line feed included. -/
def ruleLine (tag : String) (r : Rhs) (prob : String) : String :=
  tag ++ "->[" ++ r.text ++ "] : " ++ prob ++ "\n"

namespace Grammar

/-- The lines of one entry's rules. -/
def Entry.ruleLines (e : Entry) : List String :=
  let prob := (uniformShare e.expansions.length).toSixPlaces
  e.expansions.map fun r => ruleLine e.tag r prob

/-- The lines of the rule file, in tag order. -/
def ruleLines (g : Grammar) : List String := g.entries.flatMap Entry.ruleLines

/-- The rule file of a grammar. -/
def toRuleFile (g : Grammar) : String := String.join g.ruleLines

end Grammar

end Pcfg
