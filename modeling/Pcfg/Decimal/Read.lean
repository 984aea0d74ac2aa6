import Pcfg.Decimal.Basic
/-!
# Reading decimal literals

A decimal literal is an optional sign, a digit string with an optional point (at least one
digit on one side of it), and an optional exponent: `e` or `E`, an optional sign and at least
one digit. Nothing else is accepted: no blanks, no words for infinities or NaNs, no digit
separators. `Decimal.ofString?` reads the literal exactly; `Binary64.ofString?` rounds it once.
-/

namespace Pcfg

namespace Decimal

/-- The value of a string of decimal digits; the empty string has value `0`. -/
def digitsValue (ds : List Char) : Nat :=
  ds.foldl (fun v c => 10 * v + (c.toNat - '0'.toNat)) 0

/-- An optional leading sign, and the rest. -/
def readSign : List Char → Bool × List Char
  | '-' :: r => (true, r)
  | '+' :: r => (false, r)
  | r => (false, r)

/-- The exponent part, from its marker to the end: `none` unless it is empty, or `e` or `E`
followed by an optional sign and a nonempty digit string. -/
def readExponent? : List Char → Option Int
  | [] => some 0
  | c :: r =>
    if c = 'e' ∨ c = 'E' then
      let (negative, ds) := readSign r
      if ds ≠ [] ∧ ds.all Char.isDigit then some (Binary64.signed negative (digitsValue ds))
      else none
    else none

/-- Reads a whole decimal literal. -/
def ofChars? (cs : List Char) : Option Decimal :=
  let (negative, r) := readSign cs
  let whole := r.takeWhile Char.isDigit
  let r := r.dropWhile Char.isDigit
  let (part, r) := match r with
    | '.' :: r => (r.takeWhile Char.isDigit, r.dropWhile Char.isDigit)
    | r => ([], r)
  if whole = [] ∧ part = [] then none
  else (readExponent? r).map fun e => ⟨negative, digitsValue (whole ++ part), e - part.length⟩

/-- Reads a whole decimal literal. -/
def ofString? (s : String) : Option Decimal := ofChars? s.toList

end Decimal

/-- Reads a decimal literal and rounds it to the nearest binary64 value. -/
def Binary64.ofString? (s : String) : Option Binary64 :=
  (Decimal.ofString? s).map Decimal.toBinary64

end Pcfg
