import Pcfg.Decimal.Shortest
/-!
# Writing binary64 values as text

Three notations, each a fixed set of decisions over the digits of `Pcfg.Decimal.Shortest`.

* `Binary64.toExponentString`: the shortest digits as `d.ddd` followed by `e` and the exponent,
  with no plus sign and no padding (`1e-7`, `1.5e300`, `0e0`).
* `Binary64.toPositionalString`: the shortest digits written out in full with no exponent
  (`100000000000000000000`, `0.30000000000000004`, `0`).
* `Binary64.toSixPlaces`: seven significant digits, six of them after the point, rounded half to
  even on the exact value, and an exponent with a sign and at least two digits
  (`1.000000e+07`, `3.333333e-01`).

All three write a minus sign for a negative value, the zero included, and write `inf`, `-inf`
and `NaN` for the values that have no digits.
-/

namespace Pcfg

namespace Binary64

/-- The text of a value with no digits, if `x` is one. -/
def specialText? (x : Binary64) : Option String :=
  match x.datum with
  | .nan => some "NaN"
  | .infinite s => some (if s then "-inf" else "inf")
  | .finite .. => none

/-- The sign written before the digits. -/
def signText (x : Binary64) : String := if x.negative then "-" else ""

/-- `d` or `d.ddd` from a nonempty digit string. -/
def pointAfterFirst : List Char → String
  | [] => ""
  | [d] => String.singleton d
  | d :: ds => String.singleton d ++ "." ++ String.ofList ds

/-- The shortest digits in exponent form. -/
def toExponentString (x : Binary64) : String :=
  match x.specialText? with
  | some t => t
  | none =>
    let d := Decimal.shortest x
    let ds := Nat.toDigits 10 d.digits
    signText x ++ pointAfterFirst ds ++ "e" ++ toString (d.exponent + ds.length - 1)

/-- A digit string scaled by `10^j`, written without an exponent. -/
def positional (ds : List Char) (j : Int) : String :=
  if 0 ≤ j then String.ofList (ds ++ List.replicate j.toNat '0')
  else
    let whole := (ds.length : Int) + j
    if 0 < whole then
      String.ofList (ds.take whole.toNat ++ '.' :: ds.drop whole.toNat)
    else
      String.ofList ('0' :: '.' :: List.replicate (-whole).toNat '0' ++ ds)

/-- The shortest digits written out in full, with no exponent. -/
def toPositionalString (x : Binary64) : String :=
  match x.specialText? with
  | some t => t
  | none =>
    let d := Decimal.shortest x
    signText x ++ positional (Nat.toDigits 10 d.digits) d.exponent

/-- An exponent with its sign and at least two digits. -/
def signedTwoDigits (e : Int) : String :=
  let ds := Nat.toDigits 10 e.natAbs
  (if e < 0 then "-" else "+") ++ String.ofList (List.replicate (2 - ds.length) '0' ++ ds)

/-- Seven significant digits, six after the point, and a signed exponent of two digits at
least. -/
def toSixPlaces (x : Binary64) : String :=
  match x.datum with
  | .nan => "NaN"
  | .infinite s => if s then "-inf" else "inf"
  | .finite s m q =>
    let (digits, e) :=
      if m = 0 then (0, 0)
      else Decimal.roundSignificant 7 (m * Nat.pow 2 q.toNat) (Nat.pow 2 (-q).toNat)
    let ds := Nat.toDigits 10 digits
    (if s then "-" else "") ++ pointAfterFirst (ds ++ List.replicate (7 - ds.length) '0') ++
      "e" ++ signedTwoDigits e

end Binary64

end Pcfg
