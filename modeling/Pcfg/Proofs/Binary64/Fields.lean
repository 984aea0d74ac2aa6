import Mathlib
import Pcfg.RuleFile.Write
/-!
# The fields of a pattern, and the share of one expansion

A pattern built from a sign, an exponent field and a fraction reads back those fields
(`Binary64.field_ofFields` and its neighbours), and every pattern is the one built from its own
fields (`Binary64.eq_ofFields`). A value of negative sign is below `+0` unless it is `-0` or a
NaN (`Binary64.lt_zero_iff_of_negative`). Every rounded ratio carries the sign it was asked
for (`Binary64.negative_ofRatio`) and is no NaN (`Binary64.datum_ofRatio_ne_nan`), a ratio of
at most one rounds to a finite value (`Binary64.datum_ofRatio_of_le`), a natural number from
one up rounds to at least one or to an infinity (`Binary64.datum_ofNat`), and so the share
`1 / n` of each of `n ≥ 1` expansions is a finite value of positive sign (`uniformShare_datum`).
-/

namespace Pcfg

namespace Binary64

theorem pow_two_11 : Nat.pow 2 11 = 2048 := rfl

theorem pow_two_52 : Nat.pow 2 52 = 4503599627370496 := rfl

theorem pow_two_63 : Nat.pow 2 63 = 9223372036854775808 := rfl

/-! ### Fields -/

theorem bits_ofFields (s : Bool) (f fr : Nat) :
    (ofFields s f fr).bits.toNat =
      (if s then Nat.pow 2 63 else 0) + f % Nat.pow 2 11 * Nat.pow 2 52 + fr % Nat.pow 2 52 := by
  simp only [ofFields, UInt64.toNat_ofNat']
  apply Nat.mod_eq_of_lt
  rw [pow_two_11, pow_two_52, pow_two_63]
  have hf := Nat.mod_lt f (show 0 < 2048 by decide)
  have hfr := Nat.mod_lt fr (show 0 < 4503599627370496 by decide)
  split <;> omega

@[simp] theorem negative_ofFields (s : Bool) (f fr : Nat) : (ofFields s f fr).negative = s := by
  have hf := Nat.mod_lt f (show 0 < 2048 by decide)
  have hfr := Nat.mod_lt fr (show 0 < 4503599627370496 by decide)
  simp only [negative, bits_ofFields, pow_two_11, pow_two_52, pow_two_63]
  cases s <;> simp only [Bool.false_eq_true, ↓reduceIte, decide_eq_true_eq, decide_eq_false_iff_not] <;>
    omega

@[simp] theorem field_ofFields (s : Bool) (f fr : Nat) :
    (ofFields s f fr).field = f % Nat.pow 2 11 := by
  have hf := Nat.mod_lt f (show 0 < 2048 by decide)
  have hfr := Nat.mod_lt fr (show 0 < 4503599627370496 by decide)
  simp only [field, bits_ofFields, pow_two_11, pow_two_52, pow_two_63]
  cases s <;> simp only [Bool.false_eq_true, ↓reduceIte] <;> omega

@[simp] theorem fraction_ofFields (s : Bool) (f fr : Nat) :
    (ofFields s f fr).fraction = fr % Nat.pow 2 52 := by
  have hf := Nat.mod_lt f (show 0 < 2048 by decide)
  have hfr := Nat.mod_lt fr (show 0 < 4503599627370496 by decide)
  simp only [fraction, bits_ofFields, pow_two_11, pow_two_52, pow_two_63]
  cases s <;> simp only [Bool.false_eq_true, ↓reduceIte] <;> omega

/-- A pattern is the pattern of its own fields. -/
theorem eq_ofFields (x : Binary64) : x = ofFields x.negative x.field x.fraction := by
  have hlt : x.bits.toNat < 18446744073709551616 := x.bits.toNat_lt
  cases x with
  | mk b =>
  rw [mk.injEq, ← UInt64.toNat_inj, bits_ofFields]
  simp only [negative, field, fraction, pow_two_11, pow_two_52, pow_two_63] at hlt ⊢
  by_cases h : b.toNat / 9223372036854775808 % 2 = 1 <;> simp only [h, decide_true, decide_false,
    if_true, if_false, Bool.false_eq_true] <;> omega

/-- A pattern whose exponent field is not all ones is finite, with its sign bit as sign. -/
theorem datum_of_field_ne {x : Binary64} (h : x.field ≠ 2047) :
    ∃ m q, x.datum = .finite x.negative m q := by
  rw [datum, if_neg h]
  split_ifs
  · exact ⟨_, _, rfl⟩
  · exact ⟨_, _, rfl⟩

/-- A normal pattern: the hidden bit and the fraction, scaled by the unbiased exponent. -/
theorem datum_of_normal {x : Binary64} (h0 : x.field ≠ 0) (h : x.field ≠ 2047) :
    x.datum = .finite x.negative (Nat.pow 2 52 + x.fraction) ((x.field : Int) - 1075) := by
  simp [datum, h0, h]

/-- A value of positive sign is not below `+0`. -/
theorem lt_zero_of_negative {x : Binary64} (h : x.negative = false) :
    x.lt (zero false) = false := by
  have hz : (zero false).datum = .finite false 0 (-1074) := by decide
  unfold lt compare?
  rw [hz]
  unfold datum
  -- a value of positive sign compares with zero as its nonnegative integer magnitude does
  split_ifs
  all_goals simp [h, signed, Int.compare_eq_lt]
  omega

/-- A pattern of negative sign that is not a NaN is below `+0` exactly when it is not `-0`. -/
theorem lt_zero_iff_of_negative {x : Binary64} (hx : x.negative = true) (hnan : x.datum ≠ .nan) :
    x.lt (zero false) = true ↔ x ≠ zero true := by
  have hz : (zero false).datum = .finite false 0 (-1074) := by decide
  have hfield : (zero true).field = 0 := by decide
  unfold lt compare?
  rw [hz]
  unfold datum at hnan ⊢
  split_ifs at hnan ⊢ with h1 h2 h3
  · -- an infinity of negative sign is below everything finite
    simp only [hx, if_true, decide_true, true_iff]
    rintro rfl
    exact absurd (hfield ▸ h1) (by decide)
  · exact absurd rfl hnan
  · -- a subnormal is below zero unless its fraction is zero, and then it is `-0`
    simp [hx, signed, compare_lt_iff_lt]
    constructor
    · rintro hpos rfl
      exact absurd hpos (by decide)
    · intro hne
      refine Nat.pos_of_ne_zero fun h0 => hne ?_
      rw [eq_ofFields x, hx, h3, h0]
      rfl
  · -- a normal value is below zero, and it is not `-0`
    simp [hx, signed, compare_lt_iff_lt]
    constructor
    · rintro - rfl
      exact h3 hfield
    · intro
      omega

/-! ### Rounded ratios -/

@[simp] theorem negative_zero (s : Bool) : (zero s).negative = s := negative_ofFields ..

@[simp] theorem negative_infinity (s : Bool) : (infinity s).negative = s := negative_ofFields ..

/-- The three outcomes of rounding a nonzero ratio, with the significand `m` and the weight
`2^q` of its last bit after a carry out of 53 bits. -/
theorem ofRatio_eq (s : Bool) {n d : Nat} (hn : n ≠ 0) :
    ∃ m q, ((divNearestEven (n * Nat.pow 2 (-max (log2Ratio n d - 52) (-1074)).toNat)
          (d * Nat.pow 2 (max (log2Ratio n d - 52) (-1074)).toNat) = Nat.pow 2 53 ∧
        m = Nat.pow 2 52 ∧ q = max (log2Ratio n d - 52) (-1074) + 1) ∨
      (m = divNearestEven (n * Nat.pow 2 (-max (log2Ratio n d - 52) (-1074)).toNat)
          (d * Nat.pow 2 (max (log2Ratio n d - 52) (-1074)).toNat) ∧
        m ≠ Nat.pow 2 53 ∧ q = max (log2Ratio n d - 52) (-1074))) ∧
      ofRatio s n d = if m < Nat.pow 2 52 then ofFields s 0 m
        else if 2047 ≤ q + 1075 then infinity s else ofFields s (q + 1075).toNat (m - Nat.pow 2 52) := by
  unfold ofRatio
  rw [if_neg hn]
  dsimp only
  by_cases hc : divNearestEven (n * Nat.pow 2 (-max (log2Ratio n d - 52) (-1074)).toNat)
      (d * Nat.pow 2 (max (log2Ratio n d - 52) (-1074)).toNat) = Nat.pow 2 53
  · rw [if_pos hc]
    exact ⟨_, _, .inl ⟨hc, rfl, rfl⟩, rfl⟩
  · rw [if_neg hc]
    exact ⟨_, _, .inr ⟨rfl, hc, rfl⟩, rfl⟩

/-- A rounded ratio has the sign it was asked for. -/
theorem negative_ofRatio (s : Bool) (n d : Nat) : (ofRatio s n d).negative = s := by
  by_cases hn : n = 0
  · simp [ofRatio, hn]
  · obtain ⟨m, q, -, heq⟩ := ofRatio_eq s (d := d) hn
    rw [heq]
    split_ifs <;> simp

/-- A rounded ratio is never a NaN. -/
theorem datum_ofRatio_ne_nan (s : Bool) (n d : Nat) : (ofRatio s n d).datum ≠ .nan := by
  by_cases hn : n = 0
  · simp only [ofRatio, hn, if_true]
    cases s <;> decide
  · obtain ⟨m, q, -, heq⟩ := ofRatio_eq s (d := d) hn
    rw [heq]
    split_ifs with hm hq
    · -- a subnormal or a zero
      obtain ⟨m', q', h⟩ := datum_of_field_ne (x := ofFields s 0 m) (by simp)
      simp [h]
    · cases s <;> decide
    · -- a normal value, whose field is below all ones
      have hfield : (ofFields s (q + 1075).toNat (m - Nat.pow 2 52)).field ≠ 2047 := by
        rw [field_ofFields, pow_two_11]
        omega
      obtain ⟨m', q', h⟩ := datum_of_field_ne hfield
      simp [h]

theorem log2Ratio_le (n d : Nat) : log2Ratio n d ≤ (n.log2 : Int) - d.log2 := by
  unfold log2Ratio
  dsimp only
  split_ifs <;> omega

theorem log2_le_log2 {n d : Nat} (hn : n ≠ 0) (h : n ≤ d) : n.log2 ≤ d.log2 :=
  (Nat.le_log2 (by omega)).2 ((Nat.log2_self_le hn).trans h)

/-- A ratio of at most one rounds to a finite value: the weight of its last bit is at most
`2^-51`, far below the range of the infinities. -/
theorem datum_ofRatio_of_le (s : Bool) {n d : Nat} (h : n ≤ d) :
    ∃ m q, (ofRatio s n d).datum = .finite s m q := by
  by_cases hn : n = 0
  · obtain ⟨m, q, hq⟩ := datum_of_field_ne (x := zero s) (by simp [zero])
    exact ⟨m, q, by simpa [ofRatio, hn] using hq⟩
  · have hlog := log2Ratio_le n d
    have hmono := log2_le_log2 hn h
    obtain ⟨m, q, hmq, heq⟩ := ofRatio_eq s (d := d) hn
    -- the weight of the last bit, after a carry, is at most `2^-51`
    have hq : q ≤ -51 := by omega
    have hfield : ∀ f fr, f < 2047 → ∃ m q, (ofFields s f fr).datum = .finite s m q := by
      intro f fr hf
      obtain ⟨m, q, hd⟩ := datum_of_field_ne (x := ofFields s f fr)
        (by simp only [field_ofFields, pow_two_11]; omega)
      exact ⟨m, q, by simpa using hd⟩
    rw [heq]
    split_ifs with h52 hinf
    · exact hfield 0 m (by decide)
    · omega
    · exact hfield _ _ (by omega)

theorem log2Ratio_one {n : Nat} (hn : n ≠ 0) : log2Ratio n 1 = n.log2 := by
  unfold log2Ratio
  dsimp only
  have h1 : Nat.log2 1 = 0 := by decide
  have hle : 1 * Nat.pow 2 (n.log2 - 0) ≤ n := by simpa using Nat.log2_self_le hn
  rw [h1, if_pos (Nat.zero_le _), if_pos hle]
  simp

theorem div_le_divNearestEven (num den : Nat) : num / den ≤ divNearestEven num den := by
  unfold divNearestEven
  dsimp only
  split_ifs <;> omega

/-- Before any carry, the significand of a natural number `n ≥ 1` has all 53 bits: `n` is at
least `2^log₂ n`, and the weight of the last bit is `2^(log₂ n - 52)`. -/
theorem le_divNearestEven_ofNat {n : Nat} (hn : n ≠ 0) :
    Nat.pow 2 52 ≤ divNearestEven (n * Nat.pow 2 (-((n.log2 : Int) - 52)).toNat)
      (1 * Nat.pow 2 ((n.log2 : Int) - 52).toNat) := by
  have hself : 2 ^ n.log2 ≤ n := Nat.log2_self_le hn
  refine le_trans ?_ (div_le_divNearestEven _ _)
  by_cases hk : 52 ≤ n.log2
  · -- the last bit weighs `2^(log₂ n - 52)`, at least one
    obtain ⟨j, hj⟩ : ∃ j, n.log2 = 52 + j := ⟨n.log2 - 52, by omega⟩
    have h1 : (-((n.log2 : Int) - 52)).toNat = 0 := by omega
    have h2 : ((n.log2 : Int) - 52).toNat = j := by omega
    rw [h1, h2, Nat.le_div_iff_mul_le (by simp)]
    show 2 ^ 52 * (1 * 2 ^ j) ≤ n * 2 ^ 0
    have hsplit : 2 ^ n.log2 = 2 ^ 52 * 2 ^ j := by rw [hj, Nat.pow_add]
    rw [hsplit] at hself
    simpa using hself
  · -- the last bit weighs `2^-(52 - log₂ n)`: the number is scaled up
    have h1 : (-((n.log2 : Int) - 52)).toNat = 52 - n.log2 := by omega
    have h2 : ((n.log2 : Int) - 52).toNat = 0 := by omega
    rw [h1, h2]
    show 2 ^ 52 ≤ n * 2 ^ (52 - n.log2) / (1 * 2 ^ 0)
    have hsplit : 2 ^ 52 = 2 ^ n.log2 * 2 ^ (52 - n.log2) := by
      rw [← Nat.pow_add]
      congr 1
      omega
    rw [hsplit, Nat.pow_zero, Nat.mul_one, Nat.div_one]
    exact Nat.mul_le_mul_right _ hself

/-- A natural number from one up rounds to an infinity, or to a value of at least one: its
significand has all 53 bits and its last bit weighs at least `2^-52`. -/
theorem datum_ofNat {n : Nat} (hn : n ≠ 0) :
    (ofNat n).datum = .infinite false ∨
      ∃ m q, (ofNat n).datum = .finite false m q ∧ Nat.pow 2 52 ≤ m ∧ -52 ≤ q := by
  obtain ⟨m, q, hmq, heq⟩ := ofRatio_eq false (d := 1) hn
  have hq0 : max (log2Ratio n 1 - 52) (-1074) = (n.log2 : Int) - 52 := by
    rw [log2Ratio_one hn]
    omega
  have hm : Nat.pow 2 52 ≤ m := by
    rcases hmq with ⟨-, hm, -⟩ | ⟨hm, -, -⟩
    · exact hm.ge
    · rw [hm, hq0]
      exact le_divNearestEven_ofNat hn
  have hq : -52 ≤ q := by
    rcases hmq with ⟨-, -, hq⟩ | ⟨-, -, hq⟩ <;> omega
  rw [ofNat, heq, if_neg (Nat.not_lt.2 hm)]
  split_ifs with hinf
  · exact .inl (by decide)
  · -- a normal pattern whose exponent field is `q + 1075`
    right
    have hfield : (ofFields false (q + 1075).toNat (m - Nat.pow 2 52)).field = (q + 1075).toNat := by
      rw [field_ofFields, pow_two_11]
      omega
    have hf0 : (ofFields false (q + 1075).toNat (m - Nat.pow 2 52)).field ≠ 0 := by
      rw [hfield]
      omega
    have hf1 : (ofFields false (q + 1075).toNat (m - Nat.pow 2 52)).field ≠ 2047 := by
      rw [hfield]
      omega
    rw [datum_of_normal hf0 hf1, negative_ofFields]
    refine ⟨_, _, rfl, Nat.le_add_right _ _, ?_⟩
    rw [hfield]
    omega

end Binary64

/-! ### The share of one expansion -/

open Binary64 in
/-- The share of each of `n ≥ 1` expansions is a finite value of positive sign. -/
theorem uniformShare_datum {n : Nat} (hn : n ≠ 0) :
    ∃ m q, (uniformShare n).datum = .finite false m q := by
  have hone : one.datum = .finite false (Nat.pow 2 52) (-52) := by decide
  show ∃ m q, (div one (ofNat n)).datum = .finite false m q
  rcases datum_ofNat hn with hinf | ⟨m, q, hd, hm, hq⟩
  · -- one over an infinity is `+0`
    simp only [div, hone, hinf]
    exact ⟨0, -1074, by decide⟩
  · -- one over a value of at least one is at most one
    simp only [div, hone, hd, bne_self_eq_false]
    rw [if_neg (by rw [pow_two_52] at hm; omega)]
    apply datum_ofRatio_of_le
    have he : (-52 - q).toNat = 0 := by omega
    rw [he, pow_two_52] at *
    show 4503599627370496 * 2 ^ 0 ≤ m * 2 ^ (-(-52 - q)).toNat
    have hpos : 1 ≤ 2 ^ (-(-52 - q)).toNat := Nat.one_le_two_pow
    calc 4503599627370496 * 2 ^ 0 ≤ m * 1 := by omega
      _ ≤ m * 2 ^ (-(-52 - q)).toNat := Nat.mul_le_mul_left _ hpos

end Pcfg
