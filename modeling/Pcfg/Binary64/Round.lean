import Pcfg.Binary64.Basic
/-!
# Rounding a ratio to binary64

`Binary64.ofRatio s n d` is the binary64 value nearest to `(-1)^s * n / d`, a tie going to the
even significand: the rounding of every arithmetic operation of this library. The ratio is
first placed between two powers of two (`log2Ratio`), which fixes the weight `2^q` of the last
significand bit; the quotient is rounded at that weight by `divNearestEven`. A significand that
rounds up to `2^53` moves to the next binade, and a value at or beyond the next power of two
after the largest finite value is an infinity.
-/

namespace Pcfg

/-- The natural number nearest to `num / den`, a tie going to the even one. -/
def divNearestEven (num den : Nat) : Nat :=
  let t := num / den
  let r := num % den
  if den < 2 * r ∨ (2 * r = den ∧ t % 2 = 1) then t + 1 else t

/-- `⌊log₂ (n / d)⌋` for positive `n` and `d`. The quotient lies strictly between
`2^(a - b - 1)` and `2^(a - b + 1)`, where `a` and `b` are the binary logarithms of `n` and `d`,
so one comparison decides it. -/
def log2Ratio (n d : Nat) : Int :=
  let a := n.log2
  let b := d.log2
  if b ≤ a then
    if d * Nat.pow 2 (a - b) ≤ n then (a : Int) - b else (a : Int) - b - 1
  else
    if d ≤ n * Nat.pow 2 (b - a) then (a : Int) - b else (a : Int) - b - 1

namespace Binary64

/-- The binary64 value nearest to `(-1)^negative * n / d` for a positive `d`, a tie going to
the even significand. A zero keeps the given sign. -/
def ofRatio (negative : Bool) (n d : Nat) : Binary64 :=
  if n = 0 then zero negative else
  -- the weight of the last significand bit, never below that of the subnormals
  let q : Int := max (log2Ratio n d - 52) (-1074)
  let m := divNearestEven (n * Nat.pow 2 (-q).toNat) (d * Nat.pow 2 q.toNat)
  -- a carry out of 53 bits moves to the next binade
  let (m, q) := if m = Nat.pow 2 53 then (Nat.pow 2 52, q + 1) else (m, q)
  if m < Nat.pow 2 52 then ofFields negative 0 m
  else if 2047 ≤ q + 1075 then infinity negative
  else ofFields negative (q + 1075).toNat (m - Nat.pow 2 52)

/-- The binary64 value nearest to a natural number. -/
def ofNat (n : Nat) : Binary64 := ofRatio false n 1

end Binary64

end Pcfg
