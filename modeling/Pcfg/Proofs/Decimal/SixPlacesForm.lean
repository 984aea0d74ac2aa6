import Mathlib
import Pcfg.Proofs.Decimal.SixPlaces
/-!
# The six-place notation

`Binary64.toSixPlaces` writes a finite value as its sign (a minus sign for every value of negative
sign, `-0` included), seven digits `d.ffffff`, then `e`, the sign of the exponent and the
exponent's digits, at least two of them. The seven digits and the exponent are those of the exact
binary value rounded to seven significant digits, ties to an even last digit: for a value in
`[10^k, 10^(k+1))` the rounded value is the nearest-even multiple `N` of `10^(k-6)`, written with
exponent `k`, except that `N = 10^7` (a carry through all seven digits) is written `1.000000` with
exponent `k + 1`. A zero is written with seven zeros and exponent `0`; the values without digits
are written `NaN`, `inf` and `-inf`.

The pieces are the layout of the text (`Binary64.toSixPlaces_toList_digits`) and the rounding to
seven significant digits (`Binary64.roundSignificant_seven_value`). The text is then read back as
the decimal literal of exactly these digits and exponent (`Binary64.ofString?_toSixPlaces`).

Main statement: `Binary64.toSixPlaces_eq_sign_digits_exponent`.
-/

namespace Pcfg

namespace Binary64

/-! ### The rounded digits -/

/-- The value `m * 2^q` as the ratio of natural numbers that the notation rounds. -/
theorem cast_mul_zpow_eq (m : ℕ) (q : ℤ) :
    (m : ℚ) * 2 ^ q = ((m * Nat.pow 2 q.toNat : ℕ) : ℚ) / ((Nat.pow 2 (-q).toNat : ℕ) : ℚ) := by
  rw [zpow_eq_div_toNat]
  simp only [Nat.pow_eq, Nat.cast_mul, Nat.cast_pow, Nat.cast_ofNat]
  ring

/-- The digits `c` and exponent `e` of a nonzero value `m * 2^q` rounded to seven significant
digits: for the value in `[10^k, 10^(k+1))`, `c * 10^(e-6)` is its nearest-even multiple
`N * 10^(k-6)`, written with exponent `k`, or as `10^6` with exponent `k + 1` after a carry. -/
theorem roundSignificant_seven_value {m : ℕ} {q : ℤ} (hm : m ≠ 0) {c : ℕ} {e : ℤ}
    (hce : Decimal.roundSignificant 7 (m * Nat.pow 2 q.toNat) (Nat.pow 2 (-q).toNat) = (c, e)) :
    ∃ (k : ℤ) (N : ℕ), (10 : ℚ) ^ k ≤ m * 2 ^ q ∧ (m : ℚ) * 2 ^ q < 10 ^ (k + 1) ∧
      NearestEven (m * 2 ^ q) (10 ^ (k - 6)) N ∧ 10 ^ 6 ≤ N ∧
      (c : ℚ) * 10 ^ (e - 6) = N * 10 ^ (k - 6) ∧
      (c, e) = if N = 10 ^ 7 then (10 ^ 6, k + 1) else (N, k) := by
  have hn : m * Nat.pow 2 q.toNat ≠ 0 := Nat.mul_ne_zero hm (Nat.pow_pos (by decide : 0 < 2)).ne'
  have hd : Nat.pow 2 (-q).toNat ≠ 0 := (Nat.pow_pos (by decide : 0 < 2)).ne'
  obtain ⟨k, N, hlo, hhi, hN, hNlo, -, heq⟩ := Decimal.roundSignificant_spec (p := 7) (by decide) hn hd
  rw [← cast_mul_zpow_eq] at hlo hhi hN
  have hk : k + 1 - ((7 : ℕ) : ℤ) = k - 6 := by push_cast; ring
  rw [hk] at hN
  rw [hce] at heq
  refine ⟨k, N, hlo, hhi, hN, hNlo, ?_, heq⟩
  split_ifs at heq with hcarry
  · -- after a carry, `1.000000e(k+1)` has the value `10^7 * 10^(k-6)`
    obtain ⟨rfl, rfl⟩ := Prod.mk.inj heq
    rw [hcarry]
    push_cast
    rw [show k + 1 - 6 = (k - 6) + 1 by ring, zpow_add_one₀ (by norm_num)]
    ring
  · obtain ⟨rfl, rfl⟩ := Prod.mk.inj heq
    rfl

/-! ### The main statement -/

/-- The six-place text of every value. A NaN and the infinities are written `NaN`, `inf` and
`-inf`. A finite value `(-1)^s * m * 2^q` is written as a minus sign exactly when `s` holds, a
digit `d`, a point, six digits `f`, `e`, the sign of the exponent `e` and its digits `E`: `|e|`
with at least two digits. A zero is written with seven zeros and exponent `0`. Otherwise `d` is not
`0`, and `d.ffffff * 10^e` is the value rounded to seven significant digits, ties to even: for a
value in `[10^k, 10^(k+1))`, the nearest-even multiple `N * 10^(k-6)`, written with exponent `k`,
or with exponent `k + 1` when the rounding carries through all seven digits (`N = 10^7`). -/
theorem toSixPlaces_eq_sign_digits_exponent (x : Binary64) :
    (x.datum = .nan → x.toSixPlaces = "NaN") ∧
    (∀ s, x.datum = .infinite s → x.toSixPlaces = if s then "-inf" else "inf") ∧
    (∀ s m q, x.datum = .finite s m q →
      ∃ (d : Char) (f : List Char) (e : ℤ) (E : List Char),
        x.toSixPlaces.toList =
          (if s then ['-'] else []) ++ d :: '.' :: (f ++ 'e' :: (if e < 0 then '-' else '+') :: E) ∧
        d.isDigit = true ∧ f.length = 6 ∧ (∀ c ∈ f, c.isDigit = true) ∧
        E.length = max 2 (Decimal.digitCount e.natAbs) ∧ (∀ c ∈ E, c.isDigit = true) ∧
        Decimal.digitsValue E = e.natAbs ∧
        (m = 0 → d :: f = List.replicate 7 '0' ∧ e = 0) ∧
        (m ≠ 0 → d ≠ '0' ∧ ∃ (k : ℤ) (N : ℕ), (10 : ℚ) ^ k ≤ m * 2 ^ q ∧
          (m : ℚ) * 2 ^ q < 10 ^ (k + 1) ∧ NearestEven (m * 2 ^ q) (10 ^ (k - 6)) N ∧
          (Decimal.digitsValue (d :: f) : ℚ) * 10 ^ (e - 6) = N * 10 ^ (k - 6) ∧
          (Decimal.digitsValue (d :: f), e) = if N = 10 ^ 7 then (10 ^ 6, k + 1) else (N, k))) := by
  refine ⟨fun hx => by rw [toSixPlaces, hx], fun s hx => by rw [toSixPlaces, hx], ?_⟩
  intro s m q hx
  obtain ⟨c, e, d, f, hce, hf, hdig, hval, htext⟩ := toSixPlaces_toList_digits hx
  obtain ⟨E, hE, hElen, hEdig, hEval⟩ := signedTwoDigits_spec e
  refine ⟨d, f, e, E, by rw [htext, hE], hdig d (by simp), hf,
    fun c hc => hdig c (List.mem_cons_of_mem d hc), hElen, hEdig, hEval, ?_, ?_⟩
  · -- a zero has the digits and the exponent of `0`
    rintro rfl
    obtain ⟨rfl, rfl⟩ := Prod.mk.inj hce
    refine ⟨?_, rfl⟩
    rw [Decimal.eq_replicate_of_digitsValue_eq_zero hdig hval, List.length_cons, hf]
  · intro hm
    rw [if_neg hm] at hce
    obtain ⟨k, N, hlo, hhi, hN, hN6, hvalue, heq⟩ := roundSignificant_seven_value hm hce
    refine ⟨?_, k, N, hlo, hhi, hN, by rw [hval]; exact hvalue, by rw [hval]; exact heq⟩
    -- a leading zero would leave fewer than seven digits
    rintro rfl
    have hc6 : 10 ^ 6 ≤ c := by
      split_ifs at heq <;> obtain ⟨rfl, -⟩ := Prod.mk.inj heq <;> omega
    have hlt := Decimal.digitsValue_lt (fun c hc => hdig c (List.mem_cons_of_mem _ hc))
    rw [Decimal.digitsValue_cons, Nat.sub_self, Nat.mul_zero, Nat.zero_add] at hval
    rw [hf] at hlt
    norm_num at hc6 hlt
    omega

/-- The tie `9999999.5` rounds to the even `10^7`, which carries into the next exponent. -/
example : toSixPlaces (ofRatio false 19999999 2) = "1.000000e+07" := by decide

end Binary64

/-! ### Reading the text back -/

/-- The written exponent, its sign then the digits of its magnitude, reads as the exponent. -/
theorem Decimal.readExponent?_signed {e : ℤ} {E : List Char} (hE : E ≠ [])
    (hdig : ∀ c ∈ E, c.isDigit = true) (hval : Decimal.digitsValue E = e.natAbs) :
    Decimal.readExponent? ('e' :: (if e < 0 then '-' else '+') :: E) = some e := by
  have hall : E.all Char.isDigit = true := List.all_eq_true.2 hdig
  by_cases he : e < 0
  · simp [Decimal.readExponent?, Decimal.readSign, he, hE, hall, hval, Binary64.signed,
      abs_of_neg he]
  · simp [Decimal.readExponent?, Decimal.readSign, he, hE, hall, hval, Binary64.signed]
    omega

/-- The six-place text of a nonzero finite value of positive sign reads as exactly the seven
digits `c` it was written with, scaled by `10^(e-6)` for the written exponent `e`. -/
theorem Binary64.ofString?_toSixPlaces {x : Binary64} {m : ℕ} {q : ℤ}
    (hx : x.datum = .finite false m q) (hm : m ≠ 0) :
    ∃ c e, Decimal.roundSignificant 7 (m * Nat.pow 2 q.toNat) (Nat.pow 2 (-q).toNat) = (c, e) ∧
      Decimal.ofString? x.toSixPlaces = some ⟨false, c, e - 6⟩ := by
  obtain ⟨c, e, d, f, hce, hf, hdig, hval, htext⟩ := toSixPlaces_toList_digits hx
  rw [if_neg hm] at hce
  obtain ⟨E, hE, hElen, hEdig, hEval⟩ := signedTwoDigits_spec e
  have hEne : E ≠ [] := by
    rintro rfl
    simp only [List.length_nil] at hElen
    omega
  have hread := Decimal.ofChars?_point_exponent (hdig d (by simp))
    (fun ch hch => hdig ch (List.mem_cons_of_mem d hch)) (Decimal.readExponent?_signed hEne hEdig hEval)
  refine ⟨c, e, hce, ?_⟩
  rw [Decimal.ofString?, htext, hE]
  simp only [Bool.false_eq_true, ↓reduceIte, List.nil_append, hread, hval, hf, Nat.cast_ofNat]

end Pcfg
