import Mathlib
import Pcfg.Proofs.Decimal.Significant
import Pcfg.RuleFile.Rule
/-!
# Reading six-place text back

A finite value is written as its sign, the seven digits `d.ffffff` of its rounded value padded
with zeros (`Binary64.padded_digits`), `e`, and the sign and at least two digits of the exponent
(`Binary64.signedTwoDigits_spec`), all laid out by `Binary64.toSixPlaces_toList_digits`. With a
positive sign that is a digit, a point, six more digits, `e`, a sign and at least two digits
(`Binary64.toSixPlaces_toList`). Such a text is a decimal literal
(`Decimal.ofChars?_sixPlaces`) made of number characters, and its value has a positive sign, so
the reader of probabilities takes it (`readProb_sixPlaces`). In particular the share of each of
`n ≥ 1` expansions reads back (`readProb_uniformShare`).
-/

namespace Pcfg

/-! ### The text -/

namespace Binary64

theorem pointAfterFirst_toList {d : Char} {ds : List Char} (h : ds ≠ []) :
    (pointAfterFirst (d :: ds)).toList = d :: '.' :: ds := by
  obtain ⟨d', ds', rfl⟩ := List.exists_cons_of_ne_nil h
  simp [pointAfterFirst]

/-- Seven digits padded with zeros on the right: a number of seven digits as it is, zero as seven
zeros. -/
theorem padded_digits {c : ℕ} (hc : c < 10 ^ 7) (h : 10 ^ 6 ≤ c ∨ c = 0) :
    ∃ d f, Nat.toDigits 10 c ++ List.replicate (7 - (Nat.toDigits 10 c).length) '0' = d :: f ∧
      f.length = 6 ∧ (∀ ch ∈ d :: f, ch.isDigit = true) ∧ Decimal.digitsValue (d :: f) = c := by
  rcases h with h | rfl
  · -- seven digits and no padding
    have h7 := (Nat.length_toDigits_le_iff (b := 10) (n := c) (by decide) (by decide : 0 < 7)).2 hc
    have h6 : ¬ (Nat.toDigits 10 c).length ≤ 6 := fun hle =>
      absurd ((Nat.length_toDigits_le_iff (by decide) (by decide)).1 hle) (Nat.not_lt.2 h)
    obtain ⟨d, f, hdf⟩ := List.exists_cons_of_ne_nil (Nat.toDigits_ne_nil (n := c) (b := 10))
    have hlen : (Nat.toDigits 10 c).length = 7 := by omega
    refine ⟨d, f, by rw [hlen, hdf]; simp, ?_, fun ch hch =>
      Nat.isDigit_of_mem_toDigits (by decide) (by decide) (hdf ▸ hch), by rw [← hdf]; simp⟩
    have := congrArg List.length hdf
    simp only [List.length_cons] at this
    omega
  · refine ⟨'0', List.replicate 6 '0', by decide, by simp, ?_, by decide⟩
    intro ch hch
    simp only [List.mem_cons, List.mem_replicate] at hch
    rcases hch with rfl | ⟨-, rfl⟩ <;> rfl

/-- The exponent is written as its sign and its digits, padded with zeros to at least two. -/
theorem signedTwoDigits_spec (e : ℤ) :
    ∃ E, (signedTwoDigits e).toList = (if e < 0 then '-' else '+') :: E ∧
      E.length = max 2 (Decimal.digitCount e.natAbs) ∧ (∀ c ∈ E, c.isDigit = true) ∧
      Decimal.digitsValue E = e.natAbs := by
  refine ⟨List.replicate (2 - (Nat.toDigits 10 e.natAbs).length) '0' ++ Nat.toDigits 10 e.natAbs,
    ?_, ?_, ?_, by simp⟩
  · unfold signedTwoDigits
    split_ifs <;> simp
  · simp only [List.length_append, List.length_replicate, Decimal.digitCount]
    omega
  · intro c hc
    rcases List.mem_append.1 hc with hc | hc
    · rw [List.eq_of_mem_replicate hc]
      rfl
    · exact Nat.isDigit_of_mem_toDigits (by decide) (by decide) hc

/-- The digits of a nonzero value, rounded to seven significant figures, are a number of seven
digits. -/
theorem roundSignificant_seven_bounds {n d : ℕ} (hn : n ≠ 0) (hd : d ≠ 0) :
    10 ^ 6 ≤ (Decimal.roundSignificant 7 n d).1 ∧ (Decimal.roundSignificant 7 n d).1 < 10 ^ 7 := by
  obtain ⟨k, N, -, -, -, hlo, hhi, heq⟩ := Decimal.roundSignificant_spec (p := 7) (by decide) hn hd
  rw [heq]
  split_ifs with hN
  · exact ⟨le_rfl, by norm_num⟩
  · exact ⟨hlo, lt_of_le_of_ne hhi hN⟩

/-- The text of a finite value: its sign, the seven digits `d.ffffff` of the rounded value, `e`
and the written exponent. -/
theorem toSixPlaces_toList_digits {x : Binary64} {s : Bool} {m : ℕ} {q : ℤ}
    (hx : x.datum = .finite s m q) :
    ∃ c e d f, (if m = 0 then ((0 : ℕ), (0 : ℤ))
        else Decimal.roundSignificant 7 (m * Nat.pow 2 q.toNat) (Nat.pow 2 (-q).toNat)) = (c, e) ∧
      f.length = 6 ∧ (∀ ch ∈ d :: f, ch.isDigit = true) ∧ Decimal.digitsValue (d :: f) = c ∧
      x.toSixPlaces.toList =
        (if s then ['-'] else []) ++ d :: '.' :: (f ++ 'e' :: (signedTwoDigits e).toList) := by
  generalize hce : (if m = 0 then ((0 : ℕ), (0 : ℤ))
      else Decimal.roundSignificant 7 (m * Nat.pow 2 q.toNat) (Nat.pow 2 (-q).toNat)) = ce
  obtain ⟨c, e⟩ := ce
  -- the digits are those of a number of seven digits, or of zero
  have hc : c < 10 ^ 7 ∧ (10 ^ 6 ≤ c ∨ c = 0) := by
    split_ifs at hce with hm
    · obtain ⟨rfl, -⟩ := Prod.mk.inj hce
      exact ⟨by decide, .inr rfl⟩
    · have hn : m * Nat.pow 2 q.toNat ≠ 0 := Nat.mul_ne_zero hm (Nat.pow_pos (by decide : 0 < 2)).ne'
      have hd : Nat.pow 2 (-q).toNat ≠ 0 := (Nat.pow_pos (by decide : 0 < 2)).ne'
      have hb := roundSignificant_seven_bounds hn hd
      rw [hce] at hb
      exact ⟨hb.2, .inl hb.1⟩
  obtain ⟨d, f, hdf, hf, hdig, hval⟩ := padded_digits hc.1 hc.2
  refine ⟨c, e, d, f, rfl, hf, hdig, hval, ?_⟩
  have hne : f ≠ [] := by
    rintro rfl
    simp at hf
  rw [toSixPlaces, hx]
  dsimp only
  rw [hce]
  dsimp only
  rw [hdf]
  cases s <;> simp [pointAfterFirst_toList hne]

/-- A finite value of positive sign is written as `d.dddddde±dd`, the exponent with at least two
digits. -/
theorem toSixPlaces_toList {x : Binary64} {m : Nat} {q : Int} (hx : x.datum = .finite false m q) :
    ∃ d frac sgn exps, (toSixPlaces x).toList = d :: '.' :: (frac ++ 'e' :: sgn :: exps) ∧
      d.isDigit = true ∧ (∀ c ∈ frac, c.isDigit = true) ∧ (sgn = '+' ∨ sgn = '-') ∧
      exps ≠ [] ∧ ∀ c ∈ exps, c.isDigit = true := by
  obtain ⟨c, e, d, f, -, -, hdig, -, htext⟩ := toSixPlaces_toList_digits hx
  obtain ⟨E, hE, hElen, hEdig, -⟩ := signedTwoDigits_spec e
  have hEne : E ≠ [] := by
    rintro rfl
    simp only [List.length_nil] at hElen
    omega
  refine ⟨d, f, if e < 0 then '-' else '+', E, by rw [htext, hE]; simp, hdig d (by simp),
    fun ch hch => hdig ch (List.mem_cons_of_mem d hch), ?_, hEne, hEdig⟩
  split_ifs
  · exact .inr rfl
  · exact .inl rfl

end Binary64

/-! ### Reading it -/

namespace Decimal

/-- A digit, a point, more digits and an exponent part read as the decimal of all the digits,
scaled by the exponent less the number of digits after the point. -/
theorem ofChars?_point_exponent {d : Char} {frac rest : List Char} {v : Int}
    (hd : d.isDigit = true) (hfrac : ∀ c ∈ frac, c.isDigit = true)
    (hrest : readExponent? ('e' :: rest) = some v) :
    ofChars? (d :: '.' :: (frac ++ 'e' :: rest)) =
      some ⟨false, digitsValue (d :: frac), v - frac.length⟩ := by
  have hsign : readSign (d :: '.' :: (frac ++ 'e' :: rest)) =
      (false, d :: '.' :: (frac ++ 'e' :: rest)) := by
    have h1 : d ≠ '-' := by
      rintro rfl
      exact absurd hd (by decide)
    have h2 : d ≠ '+' := by
      rintro rfl
      exact absurd hd (by decide)
    unfold readSign
    split <;> simp_all
  have he : Char.isDigit 'e' = false := by decide
  have hpt : Char.isDigit '.' = false := by decide
  have hsplit : (frac ++ 'e' :: rest).takeWhile Char.isDigit = frac ∧
      (frac ++ 'e' :: rest).dropWhile Char.isDigit = 'e' :: rest := by
    refine ⟨?_, ?_⟩
    · rw [List.takeWhile_append_of_pos hfrac, List.takeWhile_cons_of_neg (by simp [he])]
      simp
    · rw [List.dropWhile_append_of_pos hfrac, List.dropWhile_cons_of_neg (by simp [he])]
  have hwhole : (d :: '.' :: (frac ++ 'e' :: rest)).takeWhile Char.isDigit = [d] := by
    simp [hd, hpt]
  have hafter : (d :: '.' :: (frac ++ 'e' :: rest)).dropWhile Char.isDigit =
      '.' :: (frac ++ 'e' :: rest) := by
    simp [hd, hpt]
  unfold ofChars?
  rw [hsign]
  dsimp only
  rw [hwhole, hafter]
  split
  · -- the point is followed by the fraction digits and the exponent part
    rename_i r hr
    obtain rfl : frac ++ 'e' :: rest = r := (List.cons.inj hr).2
    rw [hsplit.1, hsplit.2, hrest]
    simp
  · rename_i hno
    exact absurd rfl (hno _)

/-- A text `d.ffffffe±xx` is the decimal literal of its digits, scaled by its exponent. -/
theorem ofChars?_sixPlaces {d sgn : Char} {frac exps : List Char} (hd : d.isDigit = true)
    (hfrac : ∀ c ∈ frac, c.isDigit = true) (hsgn : sgn = '+' ∨ sgn = '-') (hexps : exps ≠ [])
    (hexpd : ∀ c ∈ exps, c.isDigit = true) :
    ∃ k e, ofChars? (d :: '.' :: (frac ++ 'e' :: sgn :: exps)) = some ⟨false, k, e⟩ := by
  obtain ⟨b, hs⟩ : ∃ b, readSign (sgn :: exps) = (b, exps) := by
    rcases hsgn with rfl | rfl
    · exact ⟨false, rfl⟩
    · exact ⟨true, rfl⟩
  have hall : exps.all Char.isDigit = true := List.all_eq_true.2 hexpd
  have hexp : readExponent? ('e' :: sgn :: exps) = some (Binary64.signed b (digitsValue exps)) := by
    simp [readExponent?, hs, hexps, hall]
  exact ⟨_, _, ofChars?_point_exponent hd hfrac hexp⟩

/-- A decimal of positive sign rounds to a value of positive sign. -/
theorem negative_toBinary64 (k : Nat) (e : Int) : (toBinary64 ⟨false, k, e⟩).negative = false := by
  unfold toBinary64
  split_ifs <;> simp [Binary64.negative_ofRatio]

end Decimal

/-- The six-place text of a finite value of positive sign is taken by the reader of
probabilities, as the value of its decimal literal. -/
theorem readProb_sixPlaces {x : Binary64} {m : Nat} {q : Int} (hx : x.datum = .finite false m q) :
    ∃ p, RuleFile.readProb x.toSixPlaces = .ok p ∧ Binary64.ofString? x.toSixPlaces = some p := by
  obtain ⟨d, frac, sgn, exps, htext, hd, hfrac, hsgn, hne, hexpd⟩ := Binary64.toSixPlaces_toList hx
  obtain ⟨k, e, hdec⟩ := Decimal.ofChars?_sixPlaces hd hfrac hsgn hne hexpd
  have hof : Binary64.ofString? x.toSixPlaces = some (Decimal.toBinary64 ⟨false, k, e⟩) := by
    simp [Binary64.ofString?, Decimal.ofString?, htext, hdec]
  -- digits, a point, `e` and a sign are all number characters
  have hnum : Listing.NumberLike x.toSixPlaces := by
    refine ⟨by simp [htext], ?_⟩
    rw [htext]
    intro c hc
    unfold Listing.numberChar
    simp only [List.mem_cons, List.mem_append] at hc
    rcases hc with rfl | rfl | hc | rfl | rfl | hc
    · simp [hd]
    · decide
    · simp [hfrac c hc]
    · decide
    · rcases hsgn with rfl | rfl <;> decide
    · simp [hexpd c hc]
  refine ⟨_, ?_, hof⟩
  rw [RuleFile.readProb, if_pos hnum, hof]
  simp [Binary64.lt_zero_of_negative (Decimal.negative_toBinary64 k e)]

/-- The share of each of `n ≥ 1` expansions, written with six places, reads back. -/
theorem readProb_uniformShare {n : Nat} (hn : n ≠ 0) :
    ∃ p, RuleFile.readProb (uniformShare n).toSixPlaces = .ok p ∧
      Binary64.ofString? (uniformShare n).toSixPlaces = some p := by
  obtain ⟨m, q, h⟩ := uniformShare_datum hn
  exact readProb_sixPlaces h

end Pcfg
