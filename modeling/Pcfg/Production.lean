import Pcfg.Symbol
/-!
# Productions

A production expands a tag, its left-hand side, into a right-hand side of symbols. It is
written `LHS->[RHS]` with the right-hand side's symbols separated by spaces.

A production is lexical when some symbol of its right-hand side is a word, and homogeneous when
its right-hand side is all non-terminals or a single word: the shape every rule of a converted
grammar has.
-/

namespace Pcfg

/-- A rule of a grammar: a tag and what it expands to. -/
structure Production where
  /-- The tag expanded. -/
  lhs : String
  /-- The symbols it expands to. -/
  rhs : Rhs
deriving DecidableEq, Repr

namespace Production

/-- The written form `LHS->[RHS]`. -/
def text (p : Production) : String := p.lhs ++ "->[" ++ p.rhs.text ++ "]"

/-- No symbol of the right-hand side is a word. -/
def Nonlexical (p : Production) : Prop := ∀ s ∈ p.rhs, s.isTerminal = false

theorem nonlexical_iff (p : Production) : p.rhs.all (!·.isTerminal) = true ↔ p.Nonlexical := by
  simp [Nonlexical, List.all_eq_true]

instance : DecidablePred Nonlexical := fun p => decidable_of_iff _ p.nonlexical_iff

/-- The right-hand side is all non-terminals, or one word. -/
def Homogeneous (p : Production) : Prop :=
  p.Nonlexical ∨ (p.rhs.length = 1 ∧ ∀ s ∈ p.rhs, s.isTerminal = true)

theorem homogeneous_iff (p : Production) :
    (p.rhs.all (!·.isTerminal) || (p.rhs.length == 1 && p.rhs.all (·.isTerminal))) = true ↔
      p.Homogeneous := by
  simp [Homogeneous, Nonlexical, List.all_eq_true]

instance : DecidablePred Homogeneous := fun p => decidable_of_iff _ p.homogeneous_iff

end Production

end Pcfg
