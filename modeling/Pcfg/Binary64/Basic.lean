/-!
# Binary64 values

A binary64 value is a 64-bit pattern: a sign bit, an 11-bit biased exponent field and a 52-bit
fraction. `Binary64.datum` reads a pattern as what it stands for: a NaN, an infinity of a sign,
or a finite value `(-1)^s * m * 2^q` with a natural significand `m` and an integer exponent `q`.
The fields are computed in `Nat` arithmetic, so that closed instances evaluate in the kernel.

The operations of this library (rounding, arithmetic, decimal text) are defined through the
datum and never through a platform's floating-point unit.
-/

namespace Pcfg

/-- A binary64 value, given by its 64-bit pattern. -/
structure Binary64 where
  /-- The bit pattern: sign in bit 63, exponent field in bits 52 to 62, fraction below. -/
  bits : UInt64
deriving DecidableEq, Inhabited, Repr

namespace Binary64

/-- The sign bit. -/
def negative (x : Binary64) : Bool := x.bits.toNat / Nat.pow 2 63 % 2 = 1

/-- The biased exponent field: bits 52 to 62. -/
def field (x : Binary64) : Nat := x.bits.toNat / Nat.pow 2 52 % Nat.pow 2 11

/-- The fraction field: the low 52 bits. -/
def fraction (x : Binary64) : Nat := x.bits.toNat % Nat.pow 2 52

/-- The pattern with the given sign, exponent field and fraction; the fields are taken modulo
their widths. -/
def ofFields (negative : Bool) (field fraction : Nat) : Binary64 :=
  ⟨UInt64.ofNat ((if negative then Nat.pow 2 63 else 0) + field % Nat.pow 2 11 * Nat.pow 2 52 +
    fraction % Nat.pow 2 52)⟩

/-- What a pattern stands for. A zero is finite with significand `0` and keeps its sign. -/
inductive Datum where
  /-- Not a number. -/
  | nan
  /-- An infinity of the given sign. -/
  | infinite (negative : Bool)
  /-- `(-1)^negative * significand * 2^exponent`. -/
  | finite (negative : Bool) (significand : Nat) (exponent : Int)
deriving DecidableEq, Repr

/-- The datum of a pattern. The all-ones field holds infinities (fraction `0`) and NaNs; the
zero field holds zeros and subnormals, `fraction * 2^-1074`; any other field `e` holds
`(2^52 + fraction) * 2^(e - 1075)`. -/
def datum (x : Binary64) : Datum :=
  if x.field = 2047 then
    if x.fraction = 0 then .infinite x.negative else .nan
  else if x.field = 0 then
    .finite x.negative x.fraction (-1074)
  else
    .finite x.negative (Nat.pow 2 52 + x.fraction) ((x.field : Int) - 1075)

/-- The zero of the given sign. -/
def zero (negative : Bool) : Binary64 := ofFields negative 0 0

/-- The infinity of the given sign. -/
def infinity (negative : Bool) : Binary64 := ofFields negative 2047 0

/-- The quiet NaN with an empty payload. -/
def nan : Binary64 := ofFields false 2047 (Nat.pow 2 51)

/-- The same value with the other sign. -/
def negate (x : Binary64) : Binary64 := ofFields (!x.negative) x.field x.fraction

/-- The same value with a clear sign bit. -/
def abs (x : Binary64) : Binary64 := ofFields false x.field x.fraction

/-- One, whose field is the bias `1023`. -/
def one : Binary64 := ofFields false 1023 0

/-- Neither an infinity nor a NaN. -/
def IsFinite (x : Binary64) : Prop := x.field ≠ 2047

instance : DecidablePred IsFinite := fun x => inferInstanceAs (Decidable (x.field ≠ 2047))

/-! ### Small facts about the fields -/

theorem field_lt (x : Binary64) : x.field < Nat.pow 2 11 := Nat.mod_lt _ (by decide)

theorem fraction_lt (x : Binary64) : x.fraction < Nat.pow 2 52 := Nat.mod_lt _ (by decide)

end Binary64

end Pcfg
