import Pcfg.Decimal.Basic
/-!
# Decimal digits of a binary64 value

Two ways of choosing decimal digits for a positive value `v = m * 2^q`, both in exact natural
arithmetic.

* `Decimal.shortest` gives the fewest significant digits that read back as the same value. The
  values that read back form an interval around `v` reaching halfway to each neighbour (the gap
  below a power of two is half as wide), its ends included when `m` is even. For `n = 1, 2, …`
  digits, the two neighbours of `v` on the grid of `n` significant digits are tested; the first
  grid with a neighbour inside wins, of two the nearer, and of two equally near the upper.
  Seventeen digits always suffice.
* `Decimal.roundSignificant p` rounds to `p` significant digits, a tie going to the even last
  digit, carrying into the next power of ten when the digits round up to `10^p`.
-/

namespace Pcfg

namespace Decimal

/-- `⌊log₁₀ (n / d)⌋` for positive `n` and `d`: the quotient lies strictly between
`10^(a - b - 1)` and `10^(a - b + 1)`, where `a` and `b` are the digit counts. -/
def log10Ratio (n d : Nat) : Int :=
  let k : Int := (digitCount n : Int) - digitCount d
  if d * Nat.pow 10 k.toNat ≤ n * Nat.pow 10 (-k).toNat then k else k - 1

/-- Compares `c * 10^j` with `w * 2^p`. -/
def compareScaled (c : Nat) (j : Int) (w : Nat) (p : Int) : Ordering :=
  compare (c * Nat.pow 10 j.toNat * Nat.pow 2 (-p).toNat)
    (w * Nat.pow 2 p.toNat * Nat.pow 10 (-j).toNat)

/-- Removes trailing zero digits, raising the exponent; `fuel` bounds the digits removed. -/
def trimZeros : Nat → Decimal → Decimal
  | 0, x => x
  | fuel + 1, x =>
    if x.digits ≠ 0 ∧ x.digits % 10 = 0 then
      trimZeros fuel ⟨x.negative, x.digits / 10, x.exponent + 1⟩
    else x

/-- The digits of `n` significant figures nearest to `m * 2^q` that read back, if any. The
values reading back as `m * 2^q` lie between `(4m - 2) * 2^(q-2)` (or `(4m - 1) * 2^(q-2)` when
`narrow`) and `(4m + 2) * 2^(q-2)`, ends included when `inclusive`. -/
def onGrid? (m : Nat) (q : Int) (narrow inclusive : Bool) (k : Int) (n : Nat) :
    Option (Nat × Int) :=
  let j := k + 1 - n
  let lo := m * Nat.pow 2 q.toNat * Nat.pow 10 (-j).toNat /
    (Nat.pow 2 (-q).toNat * Nat.pow 10 j.toNat)
  let low := 4 * m - (if narrow then 1 else 2)
  let high := 4 * m + 2
  let inside (c : Nat) : Bool :=
    let a := compareScaled c j low (q - 2)
    let b := compareScaled c j high (q - 2)
    if inclusive then a != .lt && b != .gt else a == .gt && b == .lt
  match inside lo, inside (lo + 1) with
  | true, true =>
    -- the nearer of the two; a tie goes up
    if compareScaled (2 * lo + 1) j m (q + 1) = .gt then some (lo, j) else some (lo + 1, j)
  | true, false => some (lo, j)
  | false, true => some (lo + 1, j)
  | false, false => none

/-- The shortest digits that read back as the positive value `m * 2^q`, trailing zeros removed.
`narrow` marks a significand `2^52` above the least normal binade, where the gap below is
half as wide; `inclusive` marks an even significand. -/
def shortestOf (m : Nat) (q : Int) (narrow inclusive : Bool) : Decimal :=
  let k := log10Ratio (m * Nat.pow 2 q.toNat) (Nat.pow 2 (-q).toNat)
  -- seventeen digits always hold a value that reads back; the default is never taken
  let nearest17 := divNearestEven (m * Nat.pow 2 q.toNat * Nat.pow 10 (16 - k).toNat)
    (Nat.pow 2 (-q).toNat * Nat.pow 10 (k - 16).toNat)
  let (d, j) := ((List.range 17).findSome? fun i => onGrid? m q narrow inclusive k (i + 1)).getD
    (nearest17, k - 16)
  trimZeros 17 ⟨false, d, j⟩

/-- The shortest decimal that reads back as the finite value `x`, with its sign; a zero is
`0 * 10^0`. For an infinity or a NaN the result is meaningless. -/
def shortest (x : Binary64) : Decimal :=
  match x.datum with
  | .finite s m q =>
    if m = 0 then ⟨s, 0, 0⟩
    else
      let r := shortestOf m q (x.fraction = 0 ∧ 1 < x.field) (m % 2 = 0)
      { r with negative := s }
  | _ => ⟨x.negative, 0, 0⟩

/-- The value `n / d` (positive) rounded to `p` significant digits: digits in `[10^(p-1), 10^p)`
and the exponent of the leading digit. A tie goes to the even last digit. -/
def roundSignificant (p : Nat) (n d : Nat) : Nat × Int :=
  let k := log10Ratio n d
  let j := k + 1 - p
  let c := divNearestEven (n * Nat.pow 10 (-j).toNat) (d * Nat.pow 10 j.toNat)
  if c = Nat.pow 10 p then (Nat.pow 10 (p - 1), k + 1) else (c, k)

end Decimal

end Pcfg
