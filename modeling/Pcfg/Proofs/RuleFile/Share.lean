import Mathlib
import Pcfg.Proofs.Decimal.SixPlacesForm
import Pcfg.Proofs.RuleFile.Rule
/-!
# The written share of one expansion

A tag with `n` expansions writes each of its rules with the share `uniformShare n`, the binary64
quotient `1 / n` written with six places. Three roundings stand between the text and `1 / n`: the
conversion of `n` to binary64, the quotient, and the seven significant digits of the text. The two
binary roundings are off by at most a relative `2^-53` each (`Binary64.ofRatio_relative_error`), the
decimal one by at most half a unit in the seventh digit, a relative `5 · 10^-7`
(`Binary64.sixPlaces_relative_error`). Summed exactly, the `n` written shares of a tag are then one
within `5 · 10^-7 + 3 · 2^-53` (`uniformShare_sixPlaces_sum_near_one`), inside the tolerance
`10^-6` with which the sums of a rule file are checked.
-/

namespace Pcfg

/-- Three relative roundings, of `n` to `n'`, of `1 / n'` to `v` and of `v` to `D`, leave `n * D`
within `5 · 10^-7 + 3 · 2^-53` of one. -/
theorem abs_mul_sub_one_le_of_roundings {n n' v D : ℚ} (hn : 0 ≤ n) (hn' : 0 < n')
    (h1 : |n' - n| ≤ n' / 2 ^ 53) (h2 : |v - 1 / n'| ≤ 1 / n' / 2 ^ 53)
    (h3 : |D - v| ≤ 5 / 10 ^ 7 * v) : |n * D - 1| ≤ 5 / 10 ^ 7 + 3 / 2 ^ 53 := by
  -- `n / n'` and `n * v` exceed one by at most a rounding or two
  have hnn : n / n' ≤ 1 + 1 / 2 ^ 53 := by
    rw [div_le_iff₀ hn']
    linarith [(abs_le.1 h1).1]
  have hnv : n * v ≤ (1 + 1 / 2 ^ 53) * (1 + 1 / 2 ^ 53) := by
    have hv : v ≤ (1 + 1 / 2 ^ 53) * (1 / n') := by linarith [(abs_le.1 h2).2]
    calc n * v ≤ n * ((1 + 1 / 2 ^ 53) * (1 / n')) := mul_le_mul_of_nonneg_left hv hn
      _ = (1 + 1 / 2 ^ 53) * (n / n') := by ring
      _ ≤ (1 + 1 / 2 ^ 53) * (1 + 1 / 2 ^ 53) := by gcongr
  -- the error is the sum of the three roundings, each weighted by `n`
  have hsplit : n * D - 1 = n * (D - v) + n * (v - 1 / n') + (n - n') / n' := by
    field_simp
    ring
  have e1 : |n * (D - v)| ≤ 5 / 10 ^ 7 * ((1 + 1 / 2 ^ 53) * (1 + 1 / 2 ^ 53)) := by
    rw [abs_mul, abs_of_nonneg hn]
    calc n * |D - v| ≤ n * (5 / 10 ^ 7 * v) := mul_le_mul_of_nonneg_left h3 hn
      _ = 5 / 10 ^ 7 * (n * v) := by ring
      _ ≤ _ := by gcongr
  have e2 : |n * (v - 1 / n')| ≤ 1 / 2 ^ 53 * (1 + 1 / 2 ^ 53) := by
    rw [abs_mul, abs_of_nonneg hn]
    calc n * |v - 1 / n'| ≤ n * (1 / n' / 2 ^ 53) := mul_le_mul_of_nonneg_left h2 hn
      _ = 1 / 2 ^ 53 * (n / n') := by ring
      _ ≤ _ := by gcongr
  have e3 : |(n - n') / n'| ≤ 1 / 2 ^ 53 := by
    rw [abs_div, abs_of_pos hn', abs_sub_comm, div_le_iff₀ hn']
    linarith
  calc |n * D - 1| ≤ |n * (D - v)| + |n * (v - 1 / n')| + |(n - n') / n'| := by
        rw [hsplit]
        exact abs_add_three _ _ _
    _ ≤ 5 / 10 ^ 7 * ((1 + 1 / 2 ^ 53) * (1 + 1 / 2 ^ 53)) + 1 / 2 ^ 53 * (1 + 1 / 2 ^ 53) +
        1 / 2 ^ 53 := add_le_add (add_le_add e1 e2) e3
    _ ≤ 5 / 10 ^ 7 + 3 / 2 ^ 53 := by norm_num

namespace Binary64

/-! ### The two binary roundings -/

/-- A natural number `1 ≤ n < 2^64` rounds to a finite value `n'` in `[1, 2^64]`, within a
relative `2^-53` of `n`. -/
theorem ofNat_relative_error {n : ℕ} (hn : n ≠ 0) (h64 : n < 2 ^ 64) :
    ∃ m q, (ofNat n).datum = .finite false m q ∧ 1 ≤ (m : ℚ) * 2 ^ q ∧
      (m : ℚ) * 2 ^ q ≤ 2 ^ (64 : ℤ) ∧ |(m : ℚ) * 2 ^ q - n| ≤ m * 2 ^ q / 2 ^ 53 := by
  have hlog : n.log2 < 64 := (Nat.log2_lt hn).2 h64
  have hL := log2Ratio_one hn
  obtain ⟨m, q, hx, hV, herr, -, hmono⟩ :=
    ofRatio_relative_error false hn one_ne_zero (by omega) (by omega)
  simp only [hL, Nat.cast_one, div_one] at hV herr hmono
  have hn64 : (n : ℚ) ≤ 2 ^ (64 : ℤ) := by exact_mod_cast h64.le
  refine ⟨m, q, hx, ?_, hmono 64 (by omega) hn64, herr⟩
  exact (one_le_zpow₀ one_le_two (Int.natCast_nonneg _)).trans hV

/-- A quotient of finite values by a nonzero divisor is their exact quotient, rounded once. -/
theorem div_eq_ofRatio {x y : Binary64} {s t : Bool} {m n : ℕ} {q p : ℤ}
    (hx : x.datum = .finite s m q) (hy : y.datum = .finite t n p) (hn : n ≠ 0) :
    x / y = ofRatio (s != t) (m * Nat.pow 2 (q - p).toNat) (n * Nat.pow 2 (-(q - p)).toNat) := by
  show div x y = _
  simp only [div, hx, hy, if_neg hn]

/-- The ratio that `div_eq_ofRatio` rounds is the quotient of the two values. -/
theorem cast_div_quotient (m n : ℕ) (q p : ℤ) :
    ((m * Nat.pow 2 (q - p).toNat : ℕ) : ℚ) / ((n * Nat.pow 2 (-(q - p)).toNat : ℕ) : ℚ) =
      (m * 2 ^ q) / (n * 2 ^ p) := by
  have h := cast_div_pow_toNat (B := 2) two_pos m n (p - q)
  rw [neg_sub, show p - q = -(q - p) by ring] at h
  rw [h, Nat.cast_ofNat, zpow_neg, zpow_sub₀ two_ne_zero]
  field_simp

/-- The share of each of `1 ≤ n < 2^64` expansions: `n` rounds to some `n'` within a relative
`2^-53`, and the share is a value in `(0, 1]` within a relative `2^-53` of `1 / n'`. -/
theorem uniformShare_relative_error {n : ℕ} (hn : n ≠ 0) (h64 : n < 2 ^ 64) :
    ∃ n' : ℚ, 1 ≤ n' ∧ |n' - n| ≤ n' / 2 ^ 53 ∧
      ∃ m q, (uniformShare n).datum = .finite false m q ∧ 0 < (m : ℚ) * 2 ^ q ∧
        (m : ℚ) * 2 ^ q ≤ 1 ∧ |(m : ℚ) * 2 ^ q - 1 / n'| ≤ 1 / n' / 2 ^ 53 := by
  obtain ⟨M, Q, hy, h1, h64', herr⟩ := ofNat_relative_error hn h64
  have hM : M ≠ 0 := by
    rintro rfl
    norm_num at h1
  have hone : one.datum = .finite false (Nat.pow 2 52) (-52) := by decide
  have hdiv := div_eq_ofRatio hone hy hM
  have hratio := cast_div_quotient (Nat.pow 2 52) M (-52) Q
  generalize Nat.pow 2 52 * Nat.pow 2 (-52 - Q).toNat = a at hdiv hratio
  generalize M * Nat.pow 2 (-(-52 - Q)).toNat = b at hdiv hratio
  have hratio' : (a : ℚ) / b = 1 / (M * 2 ^ Q) := by
    rw [hratio, Nat.pow_eq, Nat.cast_pow, Nat.cast_ofNat, ← zpow_natCast, ← zpow_add₀ two_ne_zero]
    norm_num
  have hpos : (0 : ℚ) < M * 2 ^ Q := by linarith
  have ha : a ≠ 0 := by
    rintro rfl
    rw [Nat.cast_zero, zero_div] at hratio'
    exact absurd hratio'.symm (by positivity)
  have hb : b ≠ 0 := by
    rintro rfl
    rw [Nat.cast_zero, div_zero] at hratio'
    exact absurd hratio'.symm (by positivity)
  -- the quotient `1 / n'` lies in `[2^-64, 1]`, so its binary exponent lies in `[-64, 0]`
  obtain ⟨hLlo, hLhi⟩ := log2Ratio_spec ha hb
  rw [hratio'] at hLlo hLhi
  have hq1 : 1 / ((M : ℚ) * 2 ^ Q) ≤ 1 := (div_le_one hpos).2 h1
  have hL0 : log2Ratio a b ≤ 0 := (zpow_le_one_iff_right₀ one_lt_two).1 (hLlo.trans hq1)
  have hL64 : -64 ≤ log2Ratio a b := by
    have hq64 : (2 : ℚ) ^ (-64 : ℤ) ≤ 1 / (M * 2 ^ Q) := by
      rw [zpow_neg, ← one_div]
      exact one_div_le_one_div_of_le hpos h64'
    have := (zpow_lt_zpow_iff_right₀ one_lt_two).1 (hq64.trans_lt hLhi)
    omega
  obtain ⟨m, q, hx, hV, -, herr', hmono⟩ :=
    ofRatio_relative_error false ha hb (by omega) (by omega)
  rw [hratio'] at herr' hmono
  refine ⟨M * 2 ^ Q, h1, herr, m, q, ?_, ?_, ?_, herr'⟩
  · show (div one (ofNat n)).datum = _
    rw [← hx]
    exact congrArg datum hdiv
  · exact (zpow_pos two_pos _).trans_le hV
  · simpa using hmono 0 hL0 (by simpa using hq1)

/-! ### The decimal rounding -/

/-- The six-place text of a nonzero finite value `v` of positive sign reads as a decimal within
half a unit in its seventh digit of `v`, a relative `5 · 10^-7`. It is positive, and at most one
when `v` is. -/
theorem sixPlaces_relative_error {x : Binary64} {m : ℕ} {q : ℤ}
    (hx : x.datum = .finite false m q) (hm : m ≠ 0) :
    ∃ D : Decimal, Decimal.ofString? x.toSixPlaces = some D ∧ 0 < D.value ∧
      |D.value - m * 2 ^ q| ≤ 5 / 10 ^ 7 * (m * 2 ^ q) ∧ ((m : ℚ) * 2 ^ q ≤ 1 → D.value ≤ 1) := by
  obtain ⟨c, e, hce, hread⟩ := ofString?_toSixPlaces hx hm
  obtain ⟨k, N, hlo, -, hN, hN6, hvalue, -⟩ := roundSignificant_seven_value hm hce
  have hval : Decimal.value ⟨false, c, e - 6⟩ = N * 10 ^ (k - 6) := by
    simp [Decimal.value, hvalue]
  have hg : (0 : ℚ) < 10 ^ (k - 6) := zpow_pos (by norm_num) _
  -- the last digit weighs a millionth of the leading power, so at most a millionth of `v`
  have hstep : (10 : ℚ) ^ (k - 6) ≤ 1 / 10 ^ 6 * (m * 2 ^ q) := by
    rw [zpow_sub₀ (by norm_num), div_eq_mul_inv, mul_comm, ← one_div]
    exact mul_le_mul_of_nonneg_left (by exact_mod_cast hlo) (by norm_num)
  refine ⟨_, hread, ?_, ?_, fun hv => ?_⟩
  · rw [hval]
    have hN0 : (0 : ℚ) < N := by exact_mod_cast (show 0 < N by omega)
    exact mul_pos hN0 hg
  · rw [hval]
    have := hN.abs_sub_le_of_le hstep
    linarith
  · -- a value at most one has a leading power `10^k ≤ 1`, and `1` is a multiple of the step
    have hk : k ≤ 0 := (zpow_le_one_iff_right₀ (by norm_num : (1 : ℚ) < 10)).1 (hlo.trans hv)
    have hone : ((10 ^ (6 - k).toNat : ℕ) : ℚ) * 10 ^ (k - 6) = 1 := by
      rw [Nat.cast_pow, Nat.cast_ofNat, ← zpow_natCast, ← zpow_add₀ (by norm_num),
        Int.toNat_of_nonneg (by omega)]
      norm_num
    have hle := hN.le_of_le hg (by rw [hone]; exact hv)
    rw [hval, ← hone]
    exact mul_le_mul_of_nonneg_right (by exact_mod_cast hle) hg.le

end Binary64

/-! ### The sum of the shares -/

/-- For each `1 ≤ n < 2^64`, the share of each of `n` expansions is written as a number word whose
exact decimal value `D` lies in `(0, 1]`, and `n` copies of it sum to one within the three
roundings: `5 · 10^-7` for the seven digits and `2^-53` for each binary rounding, less than the
tolerance `10^-6` of the check of sums. -/
theorem uniformShare_sixPlaces_sum_near_one {n : ℕ} (hn : 1 ≤ n) (h64 : n < 2 ^ 64) :
    Listing.isNumberLike (uniformShare n).toSixPlaces = true ∧
      ∃ D : Decimal, Decimal.ofString? (uniformShare n).toSixPlaces = some D ∧ 0 < D.value ∧
        D.value ≤ 1 ∧ |n * D.value - 1| ≤ 5 / 10 ^ 7 + 3 / 2 ^ 53 ∧ |n * D.value - 1| < 1 / 10 ^ 6 := by
  have hn0 : n ≠ 0 := Nat.one_le_iff_ne_zero.1 hn
  obtain ⟨n', hn', herr, m, q, hx, hpos, hle, hverr⟩ := Binary64.uniformShare_relative_error hn0 h64
  have hm : m ≠ 0 := by
    rintro rfl
    simp at hpos
  obtain ⟨D, hD, hDpos, hDerr, hD1⟩ := Binary64.sixPlaces_relative_error hx hm
  obtain ⟨p, hp, -⟩ := readProb_sixPlaces hx
  have hsum := abs_mul_sub_one_le_of_roundings (Nat.cast_nonneg n) (by linarith) herr hverr hDerr
  refine ⟨(Listing.isNumberLike_iff _).2 (RuleFile.numberLike_of_readProb hp), D, hD, hDpos,
    hD1 hle, hsum, hsum.trans_lt (by norm_num)⟩

/-- The shares of a tag with three expansions. -/
theorem uniformShare_three_sum_near_one :
    1 ≤ 3 ∧ 3 < 2 ^ 64 ∧ Listing.isNumberLike (uniformShare 3).toSixPlaces = true ∧
      ∃ D : Decimal, Decimal.ofString? (uniformShare 3).toSixPlaces = some D ∧ 0 < D.value ∧
        D.value ≤ 1 ∧ |3 * D.value - 1| ≤ 5 / 10 ^ 7 + 3 / 2 ^ 53 ∧ |3 * D.value - 1| < 1 / 10 ^ 6 :=
  ⟨by norm_num, by norm_num, by exact_mod_cast uniformShare_sixPlaces_sum_near_one (n := 3) (by norm_num) (by norm_num)⟩

end Pcfg
