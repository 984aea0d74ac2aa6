import Mathlib
import Pcfg.Decimal.Read
import Pcfg.Proofs.Binary64.Fields
/-!
# The grammar of decimal literals

A decimal literal is what the standard library documents for reading a binary64 value from
text, less the words for infinities and NaN:

    Number ::= Sign? ( Digit+ | Digit+ '.' Digit* | Digit* '.' Digit+ ) Exp?
    Exp    ::= ('e' | 'E') Sign? Digit+

`Decimal.Literal cs d` says that `cs` is such a literal and that `d` is its exact value: all its
digits as one digit string, scaled by its exponent less the number of digits after the point.
`Decimal.ofChars?` reads exactly these texts, each as its value (`Decimal.ofChars?_eq_some_iff`).

A literal rounds to a value below zero exactly when it has a minus sign and its value does not
round to zero (`Decimal.toBinary64_lt_zero_iff`): `-0`, and a negative value too small for the
format, round to `-0`, which is not below zero; a value too large for the format rounds to an
infinity of its sign.
-/

namespace Pcfg

namespace Decimal

/-! ### The grammar -/

/-- Every character is an ASCII digit. -/
def Digits (ds : List Char) : Prop := ∀ c ∈ ds, c.isDigit = true

/-- An optional sign, and whether it is a minus. -/
inductive SignText : List Char → Bool → Prop where
  /-- No sign. -/
  | none : SignText [] false
  /-- A plus sign. -/
  | plus : SignText ['+'] false
  /-- A minus sign. -/
  | minus : SignText ['-'] true

/-- The digits of a literal around its point, with the digits before and after the point:
digits alone, or a point with digits on one side of it at least. -/
inductive MantissaText : List Char → List Char → List Char → Prop where
  /-- Digits without a point. -/
  | whole {w : List Char} : w ≠ [] → Digits w → MantissaText w w []
  /-- Digits, a point and digits, not both empty. -/
  | point {w f : List Char} : w ≠ [] ∨ f ≠ [] → Digits w → Digits f →
      MantissaText (w ++ '.' :: f) w f

/-- The exponent part of a literal and its value: nothing, or `e` or `E`, an optional sign and
at least one digit. -/
inductive ExponentText : List Char → Int → Prop where
  /-- No exponent part. -/
  | none : ExponentText [] 0
  /-- A marker, a sign and digits. -/
  | mark {m : Char} {s ds : List Char} {neg : Bool} : (m = 'e' ∨ m = 'E') → SignText s neg →
      ds ≠ [] → Digits ds → ExponentText (m :: (s ++ ds)) (Binary64.signed neg (digitsValue ds))

/-- A decimal literal and its exact value. -/
inductive Literal : List Char → Decimal → Prop where
  /-- A sign, the digits around the point, and an exponent part. -/
  | mk {s m x w f : List Char} {neg : Bool} {e : Int} : SignText s neg → MantissaText m w f →
      ExponentText x e → Literal (s ++ m ++ x) ⟨neg, digitsValue (w ++ f), e - f.length⟩

/-! ### Reading the parts -/

theorem readSign_signText (cs : List Char) :
    ∃ s, SignText s (readSign cs).1 ∧ cs = s ++ (readSign cs).2 := by
  unfold readSign
  split
  · exact ⟨_, .minus, rfl⟩
  · exact ⟨_, .plus, rfl⟩
  · exact ⟨_, .none, rfl⟩

/-- A sign is read off a text whose rest does not start with another one. -/
theorem readSign_append {s r : List Char} {neg : Bool} (hs : SignText s neg)
    (hr : ∀ c ∈ r.head?, c ≠ '-' ∧ c ≠ '+') : readSign (s ++ r) = (neg, r) := by
  cases hs with
  | none =>
      unfold readSign
      split
      · exact absurd rfl (hr '-' (by simp_all)).1
      · exact absurd rfl (hr '+' (by simp_all)).2
      · simp
  | plus => rfl
  | minus => rfl

/-- A digit is no sign. -/
theorem not_sign_of_isDigit {c : Char} (h : c.isDigit = true) : c ≠ '-' ∧ c ≠ '+' := by
  constructor <;> rintro rfl <;> exact absurd h (by decide)

/-- Digits followed by a text that does not start with a digit split there. -/
theorem takeWhile_digits_append {w x : List Char} (hw : Digits w)
    (hx : ∀ c ∈ x.head?, c.isDigit = false) :
    (w ++ x).takeWhile Char.isDigit = w ∧ (w ++ x).dropWhile Char.isDigit = x := by
  rw [List.takeWhile_append_of_pos hw, List.dropWhile_append_of_pos hw]
  cases x with
  | nil => simp
  | cons c x =>
      have hc : c.isDigit = false := hx c (by simp)
      simp [hc]

theorem readExponent?_eq_some_iff {x : List Char} {e : Int} :
    readExponent? x = some e ↔ ExponentText x e := by
  constructor
  · intro h
    cases x with
    | nil =>
        obtain rfl : e = 0 := by simpa [readExponent?] using h.symm
        exact .none
    | cons m r =>
        simp only [readExponent?] at h
        split_ifs at h with hm hds
        obtain rfl := Option.some.inj h
        -- the sign is read first, then the digits
        obtain ⟨s, hs, hr⟩ := readSign_signText r
        have hmark := ExponentText.mark hm hs hds.1 (List.all_eq_true.1 hds.2)
        rwa [← hr] at hmark
  · rintro (_ | ⟨hm, hs, hds, hdig⟩)
    · rfl
    · rename_i m s ds neg
      obtain ⟨d, ds', rfl⟩ := List.exists_cons_of_ne_nil hds
      have hsign := readSign_append hs (r := d :: ds')
        (by simpa using not_sign_of_isDigit (hdig d (by simp)))
      simp [readExponent?, hm, hsign, List.all_eq_true.2 hdig]

/-! ### Reading a literal -/

/-- The exponent part starts with neither a digit nor a point. -/
theorem ExponentText.head {x : List Char} {e : Int} (h : ExponentText x e) :
    ∀ c ∈ x.head?, c.isDigit = false ∧ c ≠ '.' := by
  intro c hc
  cases h with
  | none => simp at hc
  | mark hm _ _ _ =>
      simp only [List.head?_cons, Option.mem_def, Option.some.injEq] at hc
      subst hc
      rcases hm with rfl | rfl <;> decide

/-- The digits around the point start with a digit or with the point. -/
theorem MantissaText.head {m w f : List Char} (h : MantissaText m w f) :
    ∃ c cs, m = c :: cs ∧ (c.isDigit = true ∨ c = '.') := by
  cases h with
  | whole hw hd =>
      obtain ⟨c, cs, rfl⟩ := List.exists_cons_of_ne_nil hw
      exact ⟨c, cs, rfl, .inl (hd c (by simp))⟩
  | @point w f _ hw _ =>
      cases w with
      | nil => exact ⟨'.', f, rfl, .inr rfl⟩
      | cons c cs => exact ⟨c, cs ++ '.' :: f, rfl, .inl (hw c (by simp))⟩

/-- A literal is read as its value. -/
theorem ofChars?_of_literal {cs : List Char} {d : Decimal} (h : Literal cs d) :
    ofChars? cs = some d := by
  rcases h with ⟨hs, hm, hx⟩
  rename_i s m x w f neg e
  have hxhead := hx.head
  obtain ⟨c, cs, hmc, hc⟩ := hm.head
  have hsign : readSign (s ++ m ++ x) = (neg, m ++ x) := by
    rw [List.append_assoc]
    apply readSign_append hs
    rw [hmc]
    rcases hc with hc | rfl
    · simpa using not_sign_of_isDigit hc
    · simp
  have hxd : ∀ c ∈ x.head?, c.isDigit = false := fun c hc => (hxhead c hc).1
  have hexp : readExponent? x = some e := readExponent?_eq_some_iff.2 hx
  unfold ofChars?
  rw [hsign]
  dsimp only
  cases hm with
  | whole hne hw =>
      -- the digits run up to the exponent part, and no point follows them
      obtain ⟨hwhole, hrest⟩ := takeWhile_digits_append hw hxd
      rw [hwhole, hrest]
      cases hx with
      | none => simp [hne, hexp]
      | mark hmark _ _ _ => rcases hmark with rfl | rfl <;> simp [hne, hexp]
  | point hne hw hf =>
      -- the digits run up to the point, and the fraction up to the exponent part
      have hpoint : ∀ c ∈ ('.' :: (f ++ x)).head?, c.isDigit = false := by
        intro c hc
        obtain rfl : c = '.' := by simpa using hc.symm
        decide
      obtain ⟨hwhole, hrest⟩ := takeWhile_digits_append hw hpoint
      obtain ⟨hfrac, hafter⟩ := takeWhile_digits_append hf hxd
      have hassoc : w ++ '.' :: f ++ x = w ++ '.' :: (f ++ x) := by simp
      rw [hassoc, hwhole, hrest]
      simp only [hfrac, hafter, hexp]
      have hnot : ¬ (w = [] ∧ f = []) := fun h => hne.elim (· h.1) (· h.2)
      simp [hnot]

/-- A text that is read is a literal of the value read. -/
theorem literal_of_ofChars? {cs : List Char} {d : Decimal} (h : ofChars? cs = some d) :
    Literal cs d := by
  obtain ⟨s, hs, hcs⟩ := readSign_signText cs
  unfold ofChars? at h
  rcases hsr : readSign cs with ⟨neg, r⟩
  rw [hsr] at h hs hcs
  dsimp only at h hs hcs
  have hwd : Digits (r.takeWhile Char.isDigit) := fun c hc => List.mem_takeWhile_imp hc
  split at h
  · -- a point follows the digits: then the fraction, and the exponent part after it
    rename_i r' hpt
    simp only at h
    split_ifs at h with hwf
    obtain ⟨e, he, rfl⟩ := Option.map_eq_some_iff.1 h
    have hfd : Digits (r'.takeWhile Char.isDigit) := fun c hc => List.mem_takeWhile_imp hc
    have hne : r.takeWhile Char.isDigit ≠ [] ∨ r'.takeWhile Char.isDigit ≠ [] := by tauto
    have hlit := Literal.mk hs (.point hne hwd hfd) (readExponent?_eq_some_iff.1 he)
    rwa [List.append_assoc, List.append_assoc, List.cons_append, List.takeWhile_append_dropWhile,
      ← hpt, List.takeWhile_append_dropWhile, ← hcs] at hlit
  · -- no point: the digits are followed by the exponent part
    rename_i hno
    simp only at h
    split_ifs at h with hw
    obtain ⟨e, he, rfl⟩ := Option.map_eq_some_iff.1 h
    have hne : r.takeWhile Char.isDigit ≠ [] := by simpa using hw
    have hlit := Literal.mk hs (.whole hne hwd) (readExponent?_eq_some_iff.1 he)
    rw [List.append_assoc, List.takeWhile_append_dropWhile, ← hcs] at hlit
    simpa using hlit

/-- A text is read exactly when it is a decimal literal, and it is read as the literal's
value. -/
theorem ofChars?_eq_some_iff {cs : List Char} {d : Decimal} :
    ofChars? cs = some d ↔ Literal cs d :=
  ⟨literal_of_ofChars?, ofChars?_of_literal⟩

/-! ### The sign of the rounded value -/

/-- A decimal rounds to a value of its own sign. -/
theorem negative_toBinary64_eq (d : Decimal) : d.toBinary64.negative = d.negative := by
  unfold toBinary64
  split_ifs <;> simp [Binary64.negative_ofRatio]

/-- A decimal never rounds to a NaN. -/
theorem datum_toBinary64_ne_nan (d : Decimal) : d.toBinary64.datum ≠ .nan := by
  unfold toBinary64
  split_ifs
  · cases d.negative <;> decide
  · cases d.negative <;> decide
  · cases d.negative <;> decide
  · exact Binary64.datum_ofRatio_ne_nan _ _ _

/-- A decimal rounds below zero exactly when it has a minus sign and does not round to `-0`. -/
theorem toBinary64_lt_zero_iff (d : Decimal) :
    d.toBinary64.lt (Binary64.zero false) = true ↔
      d.negative = true ∧ d.toBinary64 ≠ Binary64.zero true := by
  cases hd : d.negative
  · -- a decimal of positive sign rounds to a value of positive sign
    have hpos : d.toBinary64.negative = false := by rw [negative_toBinary64_eq, hd]
    simp [Binary64.lt_zero_of_negative hpos]
  · have hneg : d.toBinary64.negative = true := by rw [negative_toBinary64_eq, hd]
    simp [Binary64.lt_zero_iff_of_negative hneg (datum_toBinary64_ne_nan d)]

example : toBinary64 ⟨true, 1, -400⟩ = Binary64.zero true := by decide

end Decimal

end Pcfg
