import Pcfg.Listing.Line
import Pcfg.Production
/-!
# Homogeneous rules of a listing line

A rule whose right-hand side mixes words with non-terminals, or holds several words, is made
homogeneous: each word `w` among two or more children is replaced by its preterminal
`P_W` (`Symbol.preterminalOf`), and the rule `P_W->[_w]` is added beside it. A rule with a single
child keeps it as it is, a word included.

The preterminal rules of a line are listed once each, in the order of their words' first
occurrence; two different words with the same upper case give two rules of one tag, which the
grammar then refuses as a conflict.
-/

namespace Pcfg

/-- The rules that one listing line contributes. -/
structure LineRules where
  /-- The line's own rule, homogeneous. -/
  main : Production
  /-- The preterminal rules its words need, once each, in order of first use. -/
  preterminals : List Production
deriving DecidableEq, Repr

namespace Listing

/-- The preterminal rule of a word: `P_W->[_w]`. -/
def preterminalRule (w : String) : Production := ⟨(Symbol.preterminalOf w).name, [.terminal w]⟩

/-- A word stands in a rule of several children as its preterminal. -/
def wrapWord : Symbol → Symbol
  | .terminal w => Symbol.preterminalOf w
  | s => s

/-- The word of a terminal. -/
def word? : Symbol → Option String
  | .terminal w => some w
  | _ => none

/-- The rules of a listing line, made homogeneous. -/
def Line.homogenize (l : Line) : LineRules :=
  let syms := l.children.map Symbol.ofListingToken
  if 1 < syms.length then
    { main := ⟨l.tag, syms.map wrapWord⟩
      preterminals := (syms.filterMap word?).eraseDups.map preterminalRule }
  else
    { main := ⟨l.tag, syms⟩, preterminals := [] }

end Listing

end Pcfg
