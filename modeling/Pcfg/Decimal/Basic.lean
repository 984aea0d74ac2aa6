import Pcfg.Binary64.Arith
/-!
# Decimal numbers

A `Decimal` is a signed number `(-1)^negative * digits * 10^exponent` with a natural digit
string and an integer exponent. It is what decimal text means before any rounding, and
`Decimal.toBinary64` rounds it once, correctly, to the nearest binary64 value.
-/

namespace Pcfg

/-- A signed decimal number `(-1)^negative * digits * 10^exponent`; a zero keeps its sign. -/
structure Decimal where
  /-- The sign. -/
  negative : Bool
  /-- The digit string, as a natural number. -/
  digits : Nat
  /-- The power of ten that the digit string is scaled by. -/
  exponent : Int
deriving DecidableEq, Repr

namespace Decimal

/-- The number of decimal digits of `n`; one for zero. -/
def digitCount (n : Nat) : Nat := (Nat.toDigits 10 n).length

/-- The nearest binary64 value, a tie going to the even significand. Beyond the range of the
format the exact value need not be formed: a number of `e + c > 310`, where `c` is the digit
count, is at least `10^309` and rounds to an infinity, and one of `e + c < -330` is below
`10^-330` and rounds to a zero. -/
def toBinary64 (x : Decimal) : Binary64 :=
  if x.digits = 0 then Binary64.zero x.negative
  else if 310 < x.exponent + digitCount x.digits then Binary64.infinity x.negative
  else if x.exponent + digitCount x.digits < -330 then Binary64.zero x.negative
  else
    Binary64.ofRatio x.negative (x.digits * Nat.pow 10 x.exponent.toNat)
      (Nat.pow 10 (-x.exponent).toNat)

end Decimal

end Pcfg
