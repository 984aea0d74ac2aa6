import Mathlib
import Pcfg.Proofs.Binary64.Fields
/-!
# Rounding to the nearest, ties to even

Every rounding of this library picks a multiple of a grid: of the multiples `N * g` of the grid
`g`, one nearest to the exact value `v`, and of two equally near, the one with an even `N`
(`NearestEven`). The pieces of the model are shown against that rule:

* `divNearestEven num den` is the nearest-even integer to `num / den`
  (`nearestEven_divNearestEven`), and the natural quotients the model forms stand for a ratio
  scaled by a power of the base (`cast_div_pow_toNat`);
* `log2Ratio n d` is `⌊log₂ (n / d)⌋` (`log2Ratio_spec`); the same comparison, made with digit
  counts in base ten, gives `⌊log₁₀ (n / d)⌋` later (`floorLog_of_bounds`);
* a ratio whose binary logarithm lies in the range of the normal values rounds to a normal value
  `m * 2^q` that is the nearest-even multiple of the grid `2^(L - 52)`
  (`Binary64.datum_ofRatio_normal`), so it lies within `2^-53` of the ratio, relative to either
  of them (`NearestEven.abs_sub_le_of_le`).
-/

namespace Pcfg

/-- `N * g` is a multiple of the grid `g` nearest to `v`, and of two equally near multiples, the
one with an even `N`. -/
def NearestEven (v g : ℚ) (N : ℕ) : Prop :=
  2 * |N * g - v| ≤ g ∧ (2 * |N * g - v| = g → Even N)

namespace NearestEven

variable {v g : ℚ} {N M : ℕ}

/-- A value at most the multiple `M * g` rounds to at most `M`. -/
theorem le_of_le (h : NearestEven v g N) (hg : 0 < g) (hv : v ≤ M * g) : N ≤ M := by
  by_contra hlt
  have hNM : (M : ℚ) + 1 ≤ N := by exact_mod_cast Nat.not_le.1 hlt
  -- `N * g` would be a whole step above the value
  have hstep : g ≤ N * g - v := by nlinarith
  linarith [h.1, le_abs_self (N * g - v)]

/-- A value at least the multiple `M * g` rounds to at least `M`. -/
theorem le_of_ge (h : NearestEven v g N) (hg : 0 < g) (hv : M * g ≤ v) : M ≤ N := by
  by_contra hlt
  have hNM : (N : ℚ) + 1 ≤ M := by exact_mod_cast Nat.not_le.1 hlt
  -- `N * g` would be a whole step below the value
  have hstep : g ≤ v - N * g := by nlinarith
  linarith [h.1, neg_abs_le (N * g - v)]

/-- Rounding `v / g` on the unit grid is rounding `v` on the grid `g`. -/
theorem of_div (h : NearestEven (v / g) 1 N) (hg : 0 < g) : NearestEven v g N := by
  have hscale : |N * g - v| = g * |N * 1 - v / g| := by
    have : (N : ℚ) * g - v = g * (N * 1 - v / g) := by field_simp
    rw [this, abs_mul, abs_of_pos hg]
  refine ⟨?_, fun ht => h.2 ?_⟩
  · rw [hscale]
    nlinarith [h.1]
  · rw [hscale] at ht
    have : g * (2 * |N * 1 - v / g|) = g * 1 := by linarith
    exact mul_left_cancel₀ hg.ne' this

/-- The rounded value is within half a step of the value; when the step is at most `2^-p`
times a value `w` (the value itself, or the rounded one), that is `2^-(p+1)` times `w`. -/
theorem abs_sub_le_of_le (h : NearestEven v g N) {w c : ℚ} (hgw : g ≤ c * w) :
    |N * g - v| ≤ c * w / 2 := by
  linarith [h.1]

end NearestEven

/-! ### The model's pieces -/

/-- `divNearestEven num den` in natural arithmetic: twice its distance to `num / den`, counted in
steps of `1 / den`, is at most `den`, and a tie gives an even result. -/
theorem divNearestEven_spec (num : ℕ) {den : ℕ} (hd : 0 < den) :
    2 * num ≤ 2 * (divNearestEven num den * den) + den ∧
      2 * (divNearestEven num den * den) ≤ 2 * num + den ∧
      (2 * num + den = 2 * (divNearestEven num den * den) ∨
          2 * (divNearestEven num den * den) + den = 2 * num → divNearestEven num den % 2 = 0) := by
  have hsplit := Nat.div_add_mod num den
  have hr := Nat.mod_lt num hd
  unfold divNearestEven
  dsimp only
  generalize num / den = t at *
  generalize num % den = r at *
  -- the product `den * t` is one atom for `omega`
  generalize hP : den * t = P at hsplit
  split_ifs with hc
  · have hm : (t + 1) * den = P + den := by rw [← hP]; ring
    rw [hm]
    omega
  · have hm : t * den = P := by rw [← hP]; ring
    rw [hm]
    omega

/-- `divNearestEven num den` is the integer nearest to `num / den`, a tie going to the even
one. -/
theorem nearestEven_divNearestEven (num : ℕ) {den : ℕ} (hd : 0 < den) :
    NearestEven (num / den) 1 (divNearestEven num den) := by
  obtain ⟨hlo, hhi, htie⟩ := divNearestEven_spec num hd
  have hdq : (0 : ℚ) < den := by exact_mod_cast hd
  -- twice the distance, scaled by `den`, in rational form
  have hdist : 2 * |(divNearestEven num den : ℚ) * 1 - num / den| =
      |2 * ((divNearestEven num den * den : ℕ) : ℚ) - 2 * num| / den := by
    rw [← abs_of_pos (two_pos (α := ℚ)), ← abs_mul, abs_of_pos (two_pos (α := ℚ)),
      eq_div_iff hdq.ne', ← abs_of_pos hdq, ← abs_mul, abs_of_pos hdq]
    congr 1
    push_cast
    field_simp
  have hlo' : (2 * num : ℚ) ≤ 2 * ((divNearestEven num den * den : ℕ) : ℚ) + den := by
    exact_mod_cast hlo
  have hhi' : 2 * ((divNearestEven num den * den : ℕ) : ℚ) ≤ 2 * num + den := by
    exact_mod_cast hhi
  refine ⟨?_, fun ht => ?_⟩
  · rw [hdist, div_le_one hdq, abs_le]
    constructor <;> linarith
  · rw [hdist, div_eq_one_iff_eq hdq.ne'] at ht
    apply Nat.even_iff.2 (htie _)
    rcases abs_eq (by positivity : (0 : ℚ) ≤ den) |>.1 ht with h | h
    · exact .inl (by exact_mod_cast (by linarith : (2 * num : ℚ) + den =
        2 * ((divNearestEven num den * den : ℕ) : ℚ)))
    · exact .inr (by exact_mod_cast (by linarith : 2 * ((divNearestEven num den * den : ℕ) : ℚ) +
        den = 2 * num))

/-- A power of the base with an integer exponent, as the quotient of the two natural powers the
model forms. -/
theorem zpow_eq_div_toNat (B : ℚ) (k : ℤ) : B ^ k = B ^ k.toNat / B ^ (-k).toNat := by
  rcases le_or_gt 0 k with hk | hk
  · rw [Int.toNat_of_nonpos (by omega : -k ≤ 0), pow_zero, div_one, ← zpow_natCast,
      Int.toNat_of_nonneg hk]
  · rw [Int.toNat_of_nonpos hk.le, pow_zero, one_div, ← zpow_natCast,
      Int.toNat_of_nonneg (by omega : 0 ≤ -k), zpow_neg, inv_inv]

/-- The natural quotient `(n * B^(-j)) / (d * B^j)` that the model rounds stands for `n / d`
scaled by `B^-j`. -/
theorem cast_div_pow_toNat {B : ℕ} (hB : 0 < B) (n d : ℕ) (j : ℤ) :
    ((n * Nat.pow B (-j).toNat : ℕ) : ℚ) / ((d * Nat.pow B j.toNat : ℕ) : ℚ) =
      (n / d) / (B : ℚ) ^ j := by
  rw [zpow_eq_div_toNat]
  simp only [Nat.pow_eq, Nat.cast_mul, Nat.cast_pow]
  rcases Nat.eq_zero_or_pos d with rfl | hd
  · simp
  · field_simp

/-- `k` or `k - 1`, whichever is `⌊log_B r⌋`, for a ratio strictly between `B^(k-1)` and
`B^(k+1)`: one comparison with `B^k` decides it. -/
theorem floorLog_of_bounds {B r : ℚ} {k : ℤ} (hlo : B ^ (k - 1) < r) (hhi : r < B ^ (k + 1)) :
    B ^ (if B ^ k ≤ r then k else k - 1) ≤ r ∧ r < B ^ ((if B ^ k ≤ r then k else k - 1) + 1) := by
  split_ifs with h
  · exact ⟨h, hhi⟩
  · exact ⟨hlo.le, by simpa using not_le.1 h⟩

/-- A quotient of two numbers placed between powers of the base `B` lies strictly between
`B^(a-b-1)` and `B^(a-b+1)`. -/
theorem div_bounds {B : ℚ} (hB : 0 < B) {n d : ℚ} {a b : ℤ} (hn : B ^ a ≤ n) (hn' : n < B ^ (a + 1))
    (hd : B ^ b ≤ d) (hd' : d < B ^ (b + 1)) :
    B ^ (a - b - 1) < n / d ∧ n / d < B ^ (a - b + 1) := by
  have hBb : 0 < B ^ b := zpow_pos hB b
  have hdpos : 0 < d := lt_of_lt_of_le hBb hd
  constructor
  · rw [lt_div_iff₀ hdpos]
    calc B ^ (a - b - 1) * d < B ^ (a - b - 1) * B ^ (b + 1) :=
          mul_lt_mul_of_pos_left hd' (zpow_pos hB _)
      _ = B ^ a := by rw [← zpow_add₀ hB.ne']; ring_nf
      _ ≤ n := hn
  · rw [div_lt_iff₀ hdpos]
    calc n < B ^ (a + 1) := hn'
      _ = B ^ (a - b + 1) * B ^ b := by rw [← zpow_add₀ hB.ne']; ring_nf
      _ ≤ B ^ (a - b + 1) * d := mul_le_mul_of_nonneg_left hd (zpow_pos hB _).le

/-- Comparing `n / d` with `B^k` is the comparison of natural numbers that the model makes. -/
theorem zpow_le_div_iff {B : ℕ} (hB : 0 < B) (n : ℕ) {d : ℕ} (hd : d ≠ 0) (k : ℤ) :
    (B : ℚ) ^ k ≤ n / d ↔ d * Nat.pow B k.toNat ≤ n * Nat.pow B (-k).toNat := by
  have hdq : (0 : ℚ) < d := by exact_mod_cast Nat.pos_of_ne_zero hd
  have hBq : (0 : ℚ) < B := by exact_mod_cast hB
  rw [le_div_iff₀ hdq, zpow_eq_div_toNat, div_mul_eq_mul_div, div_le_iff₀ (by positivity),
    ← Nat.cast_le (α := ℚ)]
  simp only [Nat.pow_eq, Nat.cast_mul, Nat.cast_pow]
  rw [mul_comm (d : ℚ)]

/-- The comparison `log2Ratio` makes, in rational form: is `n / d` at least
`2^(log₂ n - log₂ d)`? -/
theorem log2Ratio_eq (n : ℕ) {d : ℕ} (hd : d ≠ 0) :
    log2Ratio n d = if (2 : ℚ) ^ ((n.log2 : ℤ) - d.log2) ≤ n / d then (n.log2 : ℤ) - d.log2
      else (n.log2 : ℤ) - d.log2 - 1 := by
  have hcond := zpow_le_div_iff (B := 2) two_pos n hd ((n.log2 : ℤ) - d.log2)
  rw [Nat.cast_ofNat] at hcond
  unfold log2Ratio
  dsimp only
  by_cases hba : d.log2 ≤ n.log2
  · have h1 : ((n.log2 : ℤ) - d.log2).toNat = n.log2 - d.log2 := by omega
    have h2 : (-((n.log2 : ℤ) - d.log2)).toNat = 0 := by omega
    rw [h1, h2] at hcond
    simp only [Nat.pow_eq, pow_zero, mul_one] at hcond ⊢
    simp only [if_pos hba, hcond]
  · have h1 : ((n.log2 : ℤ) - d.log2).toNat = 0 := by omega
    have h2 : (-((n.log2 : ℤ) - d.log2)).toNat = d.log2 - n.log2 := by omega
    rw [h1, h2] at hcond
    simp only [Nat.pow_eq, pow_zero, mul_one] at hcond ⊢
    simp only [if_neg hba, hcond]

/-- `log2Ratio n d` is `⌊log₂ (n / d)⌋`. -/
theorem log2Ratio_spec {n d : ℕ} (hn : n ≠ 0) (hd : d ≠ 0) :
    (2 : ℚ) ^ log2Ratio n d ≤ n / d ∧ (n : ℚ) / d < 2 ^ (log2Ratio n d + 1) := by
  -- each number lies between the powers of two of its binary logarithm
  have hbounds : ∀ {x : ℕ}, x ≠ 0 → (2 : ℚ) ^ (x.log2 : ℤ) ≤ x ∧ (x : ℚ) < 2 ^ ((x.log2 : ℤ) + 1) := by
    intro x hx
    rw [zpow_natCast, ← Nat.cast_succ, zpow_natCast]
    exact ⟨by exact_mod_cast Nat.log2_self_le hx, by exact_mod_cast Nat.lt_log2_self⟩
  obtain ⟨hlo, hhi⟩ := div_bounds two_pos (hbounds hn).1 (hbounds hn).2 (hbounds hd).1 (hbounds hd).2
  rw [log2Ratio_eq n hd]
  exact floorLog_of_bounds hlo hhi

namespace Binary64

/-- A normal pattern built from its fields: the hidden bit and the fraction, scaled by the
unbiased exponent. -/
theorem datum_ofFields_normal (s : Bool) {f fr : ℕ} (hf0 : 1 ≤ f) (hf : f ≤ 2046)
    (hfr : fr < Nat.pow 2 52) :
    (ofFields s f fr).datum = .finite s (Nat.pow 2 52 + fr) ((f : ℤ) - 1075) := by
  have hfield : (ofFields s f fr).field = f := by rw [field_ofFields, pow_two_11]; omega
  rw [datum_of_normal (by rw [hfield]; omega) (by rw [hfield]; omega), negative_ofFields,
    fraction_ofFields, hfield, Nat.mod_eq_of_lt hfr]

/-- A significand of 53 bits with an exponent in the normal range is written as a normal
pattern that reads back as it. -/
theorem datum_of_significand {s : Bool} {m : ℕ} {q : ℤ} (hm : Nat.pow 2 52 ≤ m)
    (hm' : m < Nat.pow 2 53) (hq : -1074 ≤ q) (hq' : q ≤ 971) :
    (if m < Nat.pow 2 52 then ofFields s 0 m
      else if 2047 ≤ q + 1075 then infinity s
      else ofFields s (q + 1075).toNat (m - Nat.pow 2 52)).datum = .finite s m q := by
  have h53 : Nat.pow 2 53 = 9007199254740992 := rfl
  rw [pow_two_52] at hm ⊢
  rw [h53] at hm'
  rw [if_neg (by omega), if_neg (by omega),
    datum_ofFields_normal s (by omega) (by omega) (by rw [pow_two_52]; omega), pow_two_52]
  simp only [Datum.finite.injEq, true_and]
  omega

/-- A ratio whose binary logarithm `L` lies in the range of the normal values rounds to a normal
value: a significand of 53 bits, and a value that is the nearest-even multiple of `2^(L - 52)`. -/
theorem datum_ofRatio_normal (s : Bool) {n d : ℕ} (hn : n ≠ 0) (hd : d ≠ 0)
    (hlo : -1022 ≤ log2Ratio n d) (hhi : log2Ratio n d ≤ 1022) :
    ∃ m q N, (ofRatio s n d).datum = .finite s m q ∧ Nat.pow 2 52 ≤ m ∧ m < Nat.pow 2 53 ∧
      NearestEven (n / d) (2 ^ (log2Ratio n d - 52)) N ∧ Nat.pow 2 52 ≤ N ∧ N ≤ Nat.pow 2 53 ∧
      (m : ℚ) * 2 ^ q = N * 2 ^ (log2Ratio n d - 52) := by
  obtain ⟨hLlo, hLhi⟩ := log2Ratio_spec hn hd
  obtain ⟨m, q, hmq, heq⟩ := ofRatio_eq s (d := d) hn
  have hratio := cast_div_pow_toNat (B := 2) two_pos n d (log2Ratio n d - 52)
  rw [Nat.cast_ofNat] at hratio
  generalize log2Ratio n d = L at *
  have hq0 : max (L - 52) (-1074) = L - 52 := by omega
  rw [hq0] at hmq
  have hg : (0 : ℚ) < 2 ^ (L - 52) := zpow_pos two_pos _
  -- the quotient rounded is `n / d` on the grid `2^(L - 52)`
  have hN : NearestEven (n / d) (2 ^ (L - 52))
      (divNearestEven (n * Nat.pow 2 (-(L - 52)).toNat) (d * Nat.pow 2 (L - 52).toNat)) := by
    apply NearestEven.of_div _ hg
    rw [← hratio]
    exact nearestEven_divNearestEven _ (Nat.mul_pos (Nat.pos_of_ne_zero hd) (Nat.pow_pos
      (by decide)))
  generalize divNearestEven (n * Nat.pow 2 (-(L - 52)).toNat) (d * Nat.pow 2 (L - 52).toNat) = N
    at hN hmq
  have hpow : ∀ k : ℕ, (2 : ℚ) ^ k * 2 ^ (L - 52) = 2 ^ (L - 52 + k) := fun k => by
    rw [← zpow_natCast, ← zpow_add₀ two_ne_zero, add_comm]
  -- the value lies in `[2^L, 2^(L+1))`, so the rounded quotient has 53 bits or is `2^53`
  have hNlo : Nat.pow 2 52 ≤ N := hN.le_of_ge hg (by
    rw [Nat.pow_eq, Nat.cast_pow, Nat.cast_ofNat, hpow]
    simpa using hLlo)
  have hNhi : N ≤ Nat.pow 2 53 := hN.le_of_le hg (by
    rw [Nat.pow_eq, Nat.cast_pow, Nat.cast_ofNat, hpow]
    have : L - 52 + ((53 : ℕ) : ℤ) = L + 1 := by push_cast; ring
    rw [this]
    exact hLhi.le)
  rcases hmq with ⟨hc, rfl, rfl⟩ | ⟨rfl, hc, rfl⟩
  · -- a carry out of 53 bits: the value `2^53 * 2^(L-52)` is `2^52 * 2^(L-51)`
    refine ⟨_, _, N, heq ▸ datum_of_significand le_rfl (by decide) (by omega) (by omega),
      le_rfl, by decide, hN, hNlo, hNhi, ?_⟩
    rw [hc, Nat.pow_eq, Nat.pow_eq, Nat.cast_pow, Nat.cast_pow, Nat.cast_ofNat, hpow, ← zpow_natCast,
      ← zpow_add₀ two_ne_zero]
    congr 1
    push_cast
    ring
  · refine ⟨_, _, m, heq ▸ datum_of_significand hNlo (lt_of_le_of_ne hNhi hc) (by omega) (by omega),
      hNlo, lt_of_le_of_ne hNhi hc, hN, hNlo, hNhi, rfl⟩

/-- The rounded value `V` of a ratio `r` whose binary logarithm `L` lies in the normal range: it
lies in `[2^L, 2^(L+1)]`, within `2^-53` of `r` relative to either of them, and at most every
power of two from `2^L` up that `r` is at most. -/
theorem ofRatio_relative_error (s : Bool) {n d : ℕ} (hn : n ≠ 0) (hd : d ≠ 0)
    (hlo : -1022 ≤ log2Ratio n d) (hhi : log2Ratio n d ≤ 1022) :
    ∃ m q, (ofRatio s n d).datum = .finite s m q ∧ (2 : ℚ) ^ log2Ratio n d ≤ m * 2 ^ q ∧
      |(m : ℚ) * 2 ^ q - n / d| ≤ m * 2 ^ q / 2 ^ 53 ∧
      |(m : ℚ) * 2 ^ q - n / d| ≤ (n / d) / 2 ^ 53 ∧
      ∀ E : ℤ, log2Ratio n d ≤ E → (n : ℚ) / d ≤ 2 ^ E → (m : ℚ) * 2 ^ q ≤ 2 ^ E := by
  obtain ⟨hLlo, -⟩ := log2Ratio_spec hn hd
  obtain ⟨m, q, N, hx, -, -, hN, hNlo, -, hval⟩ := datum_ofRatio_normal s hn hd hlo hhi
  generalize log2Ratio n d = L at *
  have hg : (0 : ℚ) < 2 ^ (L - 52) := zpow_pos two_pos _
  -- the grid step is `2^L / 2^52`, and half of it `2^L / 2^53`
  have hstep : (2 : ℚ) ^ (L - 52) = 2 ^ L / 2 ^ 52 := by
    rw [zpow_sub₀ two_ne_zero]
    norm_cast
  have hNlo' : (2 : ℚ) ^ 52 ≤ N := by exact_mod_cast hNlo
  have hV : (2 : ℚ) ^ L ≤ m * 2 ^ q := by
    rw [hval, hstep]
    calc (2 : ℚ) ^ L = 2 ^ 52 * (2 ^ L / 2 ^ 52) := by field_simp
      _ ≤ N * (2 ^ L / 2 ^ 52) := by gcongr
  have herr : |(m : ℚ) * 2 ^ q - n / d| ≤ 2 ^ L / 2 ^ 53 := by
    have := hN.1
    rw [hstep] at this
    rw [hval, hstep, show (2 : ℚ) ^ 53 = 2 * 2 ^ 52 by norm_num, div_mul_eq_div_div_swap]
    linarith
  refine ⟨m, q, hx, hV, ?_, ?_, fun E hE hr => ?_⟩
  · exact herr.trans (div_le_div_of_nonneg_right hV (by positivity))
  · exact herr.trans (div_le_div_of_nonneg_right hLlo (by positivity))
  · -- `2^E` is the multiple `2^(E - L + 52)` of the grid
    have hmul : (((2 ^ (E - L + 52).toNat : ℕ)) : ℚ) * 2 ^ (L - 52) = 2 ^ E := by
      rw [Nat.cast_pow, Nat.cast_ofNat, ← zpow_natCast, ← zpow_add₀ two_ne_zero,
        Int.toNat_of_nonneg (by omega)]
      congr 1
      ring
    have hle := hN.le_of_le hg (hmul ▸ hr)
    rw [hval, ← hmul]
    exact mul_le_mul_of_nonneg_right (by exact_mod_cast hle) hg.le

end Binary64

end Pcfg
