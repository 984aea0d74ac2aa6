import Mathlib
import Pcfg.Proofs.Binary64.Nearest
import Pcfg.Decimal.Read
/-!
# Digit strings and rounding to significant digits

The exact value of a decimal number (`Decimal.value`) and of a string of digits
(`Decimal.digitsValue`), and the two base-ten steps of the six-place notation:

* a number `n ≥ 1` of `c = digitCount n` digits lies in `[10^(c-1), 10^c)` (`digitCount_spec`),
  so `Decimal.log10Ratio n d` is `⌊log₁₀ (n / d)⌋` (`log10Ratio_spec`);
* `Decimal.roundSignificant p n d` rounds `n / d` to the nearest-even multiple `N` of the grid
  `10^(k + 1 - p)`, where `10^k ≤ n / d < 10^(k+1)`, and writes the multiple `10^p` that a carry
  out of the `p` digits gives as `10^(p-1)` with the next exponent (`roundSignificant_spec`).
-/

namespace Pcfg

namespace Decimal

/-- The exact value of a decimal number. -/
def value (x : Decimal) : ℚ := (if x.negative then -1 else 1) * x.digits * 10 ^ x.exponent

/-! ### Strings of digits -/

theorem digitsValue_eq_ofDigitChars (ds : List Char) :
    digitsValue ds = Nat.ofDigitChars 10 ds 0 := rfl

@[simp] theorem digitsValue_toDigits (n : ℕ) : digitsValue (Nat.toDigits 10 n) = n :=
  Nat.ofDigitChars_ten_toDigits

/-- The first digit weighs `10^k` for the `k` digits after it. -/
theorem digitsValue_cons (c : Char) (ds : List Char) :
    digitsValue (c :: ds) = 10 ^ ds.length * (c.toNat - '0'.toNat) + digitsValue ds := by
  rw [digitsValue_eq_ofDigitChars, Nat.ofDigitChars_cons, Nat.ofDigitChars_eq_ofDigitChars_zero]
  simp [digitsValue_eq_ofDigitChars]

/-- Leading zeros do not change the value. -/
@[simp] theorem digitsValue_replicate_zero_append (k : ℕ) (ds : List Char) :
    digitsValue (List.replicate k '0' ++ ds) = digitsValue ds := by
  rw [digitsValue_eq_ofDigitChars, Nat.ofDigitChars_append, Nat.ofDigitChars_replicate_zero,
    mul_zero]
  rfl

/-- A string of `k` digits has a value below `10^k`. -/
theorem digitsValue_lt {ds : List Char} (h : ∀ c ∈ ds, c.isDigit = true) :
    digitsValue ds < 10 ^ ds.length := by
  induction ds with
  | nil => decide
  | cons c ds ih =>
      have hc := Char.isDigit_iff_toNat.1 (h c (by simp))
      have h0 : '0'.toNat = 48 := rfl
      have h9 : '9'.toNat = 57 := rfl
      have hds := ih fun c' hc' => h c' (List.mem_cons_of_mem c hc')
      -- the first digit is at most nine, and the rest is below one unit of it
      have hfirst : 10 ^ ds.length * (c.toNat - '0'.toNat) ≤ 10 ^ ds.length * 9 :=
        Nat.mul_le_mul_left _ (by omega)
      rw [digitsValue_cons, List.length_cons, Nat.pow_succ]
      omega

/-- A string of digits of value zero is all zeros. -/
theorem eq_replicate_of_digitsValue_eq_zero {ds : List Char} (h : ∀ c ∈ ds, c.isDigit = true)
    (h0 : digitsValue ds = 0) : ds = List.replicate ds.length '0' := by
  induction ds with
  | nil => rfl
  | cons c ds ih =>
      rw [digitsValue_cons] at h0
      have hc := Char.isDigit_iff_toNat.1 (h c (by simp))
      have h48 : '0'.toNat = 48 := rfl
      have hpos : 0 < 10 ^ ds.length := Nat.pow_pos (by decide)
      -- the first digit contributes nothing, so it is `0`, and so is the rest
      have hfirst : c.toNat - '0'.toNat = 0 := by
        by_contra hne
        have := Nat.mul_pos hpos (Nat.pos_of_ne_zero hne)
        omega
      have hc0 : c = '0' := Char.toNat_inj.1 (by omega)
      rw [hc0, List.length_cons, List.replicate_succ,
        ← ih (fun c' hc' => h c' (List.mem_cons_of_mem c hc')) (by omega)]

/-! ### Digit counts and decimal logarithms -/

theorem one_le_digitCount (n : ℕ) : 1 ≤ digitCount n := Nat.length_toDigits_pos

/-- A positive number of `c` digits lies in `[10^(c-1), 10^c)`. -/
theorem digitCount_spec {n : ℕ} (hn : n ≠ 0) :
    10 ^ (digitCount n - 1) ≤ n ∧ n < 10 ^ digitCount n := by
  have hpos := one_le_digitCount n
  refine ⟨?_, (Nat.length_toDigits_le_iff (by decide) hpos).1 le_rfl⟩
  by_cases h1 : digitCount n = 1
  · rw [h1]
    exact Nat.one_le_iff_ne_zero.2 hn
  · -- with fewer digits the number would be shorter
    have hshort : ¬ digitCount n ≤ digitCount n - 1 := by omega
    exact Nat.not_lt.1 fun h => hshort ((Nat.length_toDigits_le_iff (by decide) (by omega)).2 h)

/-- A positive number of `c` digits lies in `[10^(c-1), 10^c)`, in rational form. -/
theorem digitCount_zpow_bounds {n : ℕ} (hn : n ≠ 0) :
    (10 : ℚ) ^ ((digitCount n : ℤ) - 1) ≤ n ∧ (n : ℚ) < 10 ^ ((digitCount n : ℤ) - 1 + 1) := by
  obtain ⟨h1, h2⟩ := digitCount_spec hn
  have hpos := one_le_digitCount n
  rw [sub_add_cancel, zpow_natCast, show (digitCount n : ℤ) - 1 = ((digitCount n - 1 : ℕ) : ℤ) by
    omega, zpow_natCast]
  exact ⟨by exact_mod_cast h1, by exact_mod_cast h2⟩

/-- `log10Ratio n d` is `⌊log₁₀ (n / d)⌋`. -/
theorem log10Ratio_spec {n d : ℕ} (hn : n ≠ 0) (hd : d ≠ 0) :
    (10 : ℚ) ^ log10Ratio n d ≤ n / d ∧ (n : ℚ) / d < 10 ^ (log10Ratio n d + 1) := by
  obtain ⟨hlo, hhi⟩ := div_bounds (by norm_num) (digitCount_zpow_bounds hn).1
    (digitCount_zpow_bounds hn).2 (digitCount_zpow_bounds hd).1 (digitCount_zpow_bounds hd).2
  have hk : (digitCount n : ℤ) - 1 - ((digitCount d : ℤ) - 1) = (digitCount n : ℤ) - digitCount d := by
    ring
  rw [hk] at hlo hhi
  -- the model compares `n / d` with `10^k` for the difference `k` of the digit counts
  have hcond := zpow_le_div_iff (B := 10) (by norm_num) n hd ((digitCount n : ℤ) - digitCount d)
  rw [Nat.cast_ofNat] at hcond
  have heq : log10Ratio n d = if (10 : ℚ) ^ ((digitCount n : ℤ) - digitCount d) ≤ n / d then
      (digitCount n : ℤ) - digitCount d else (digitCount n : ℤ) - digitCount d - 1 := by
    unfold log10Ratio
    simp only [hcond]
  rw [heq]
  exact floorLog_of_bounds hlo hhi

/-! ### Rounding to significant digits -/

/-- `roundSignificant p n d` rounds `n / d`, which lies in `[10^k, 10^(k+1))`, to the nearest-even
multiple `N` of `10^(k + 1 - p)`: a number of `p` digits, or `10^p` after a carry, which is written
`10^(p-1)` with the exponent `k + 1`. -/
theorem roundSignificant_spec {p n d : ℕ} (hp : 0 < p) (hn : n ≠ 0) (hd : d ≠ 0) :
    ∃ (k : ℤ) (N : ℕ), (10 : ℚ) ^ k ≤ n / d ∧ (n : ℚ) / d < 10 ^ (k + 1) ∧
      NearestEven (n / d) (10 ^ (k + 1 - p)) N ∧ 10 ^ (p - 1) ≤ N ∧ N ≤ 10 ^ p ∧
      roundSignificant p n d = if N = 10 ^ p then (10 ^ (p - 1), k + 1) else (N, k) := by
  obtain ⟨hlo, hhi⟩ := log10Ratio_spec hn hd
  have hratio := cast_div_pow_toNat (B := 10) (by norm_num) n d (log10Ratio n d + 1 - p)
  rw [Nat.cast_ofNat] at hratio
  have hg : (0 : ℚ) < 10 ^ (log10Ratio n d + 1 - p) := zpow_pos (by norm_num) _
  have hN : NearestEven (n / d) (10 ^ (log10Ratio n d + 1 - p))
      (divNearestEven (n * Nat.pow 10 (-(log10Ratio n d + 1 - p)).toNat)
        (d * Nat.pow 10 (log10Ratio n d + 1 - p).toNat)) := by
    apply NearestEven.of_div _ hg
    rw [← hratio]
    exact nearestEven_divNearestEven _ (Nat.mul_pos (Nat.pos_of_ne_zero hd) (Nat.pow_pos (by decide)))
  -- a multiple `10^j` of the grid, for `j` digits
  have hpow : ∀ j : ℕ, ((10 ^ j : ℕ) : ℚ) * 10 ^ (log10Ratio n d + 1 - p) =
      10 ^ (log10Ratio n d + 1 - p + j) := fun j => by
    rw [Nat.cast_pow, Nat.cast_ofNat, ← zpow_natCast, ← zpow_add₀ (by norm_num), add_comm]
  refine ⟨log10Ratio n d, _, hlo, hhi, hN, hN.le_of_ge hg ?_, hN.le_of_le hg ?_, rfl⟩
  · rw [hpow, show log10Ratio n d + 1 - p + ((p - 1 : ℕ) : ℤ) = log10Ratio n d by omega]
    exact hlo
  · rw [hpow, show log10Ratio n d + 1 - p + (p : ℤ) = log10Ratio n d + 1 by ring]
    exact hhi.le

end Decimal

end Pcfg
