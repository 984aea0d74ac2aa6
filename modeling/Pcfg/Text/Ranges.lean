/-!
# Sets of code points as ranges

A character class of the Unicode standard is given as a list of closed ranges of code points,
in increasing order. Membership is a search of the list.
-/

namespace Pcfg

namespace Text

/-- A set of code points, as closed ranges `(first, last)` in increasing order. -/
abbrev Ranges := List (Nat × Nat)

/-- Some range holds the code point. -/
def Ranges.contains (rs : Ranges) (n : Nat) : Bool := rs.any fun r => r.1 ≤ n && n ≤ r.2

theorem Ranges.contains_iff (rs : Ranges) (n : Nat) :
    rs.contains n = true ↔ ∃ r ∈ rs, r.1 ≤ n ∧ n ≤ r.2 := by
  simp [Ranges.contains]

end Text

end Pcfg
