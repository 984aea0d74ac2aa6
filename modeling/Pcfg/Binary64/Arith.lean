import Pcfg.Binary64.Round
/-!
# Binary64 arithmetic

Sum, difference, quotient and order of binary64 values, each computed exactly on the data and
rounded once by `Binary64.ofRatio`. The special cases follow the usual rules of the format: a
NaN operand gives a NaN, infinities of two signs cancel to a NaN, an exact zero sum is `-0` only
when both operands are `-0`, and a quotient takes the exclusive or of the signs.
-/

namespace Pcfg

namespace Binary64

/-- `(-1)^negative * n` as an integer. -/
def signed (negative : Bool) (n : Nat) : Int := if negative then -(n : Int) else n

/-- The rounded sum. -/
def add (x y : Binary64) : Binary64 :=
  match x.datum, y.datum with
  | .nan, _ => nan
  | _, .nan => nan
  | .infinite s, .infinite t => if s = t then infinity s else nan
  | .infinite s, .finite .. => infinity s
  | .finite .., .infinite t => infinity t
  | .finite s m q, .finite t n p =>
    -- both terms on the grid of the smaller exponent
    let e := min q p
    let c := signed s (m * Nat.pow 2 (q - e).toNat) + signed t (n * Nat.pow 2 (p - e).toNat)
    if c = 0 then zero (s && t)
    else ofRatio (c < 0) (c.natAbs * Nat.pow 2 e.toNat) (Nat.pow 2 (-e).toNat)

instance : Add Binary64 := ⟨add⟩

/-- The rounded difference: the sum with the negated second operand. -/
def sub (x y : Binary64) : Binary64 := add x y.negate

instance : Sub Binary64 := ⟨sub⟩

/-- The rounded quotient. -/
def div (x y : Binary64) : Binary64 :=
  match x.datum, y.datum with
  | .nan, _ => nan
  | _, .nan => nan
  | .infinite _, .infinite _ => nan
  | .infinite s, .finite t .. => infinity (s != t)
  | .finite s .., .infinite t => zero (s != t)
  | .finite s m q, .finite t n p =>
    if n = 0 then (if m = 0 then nan else infinity (s != t))
    else
      let e := q - p
      ofRatio (s != t) (m * Nat.pow 2 e.toNat) (n * Nat.pow 2 (-e).toNat)

instance : Div Binary64 := ⟨div⟩

/-- The order of two values, or `none` when one is a NaN. The two zeros are equal. -/
def compare? (x y : Binary64) : Option Ordering :=
  match x.datum, y.datum with
  | .nan, _ => none
  | _, .nan => none
  | .infinite s, .infinite t => some (if s = t then .eq else if s then .lt else .gt)
  | .infinite s, .finite .. => some (if s then .lt else .gt)
  | .finite .., .infinite t => some (if t then .gt else .lt)
  | .finite s m q, .finite t n p =>
    let e := min q p
    some (compare (signed s (m * Nat.pow 2 (q - e).toNat)) (signed t (n * Nat.pow 2 (p - e).toNat)))

/-- Strictly below; false when either value is a NaN. -/
def lt (x y : Binary64) : Bool := x.compare? y = some .lt

end Binary64

end Pcfg
