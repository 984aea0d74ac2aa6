import Mathlib
import Pcfg.Proofs.Decimal.Literal
import Pcfg.Proofs.RuleFile.Rule
/-!
# What a line of a rule file gives

A line of a rule file is read once the blanks at both of its ends are dropped. It is cut at the
first `->[` into the tag and the rest, and the rest at its first `] : ` into the children and the
probability (`RuleFile.SplitsAtFirst`: no earlier match of the separator starts before the cut).
The probability is a decimal literal made of number characters (`RuleFile.ProbText`), read to
the nearest binary64 value; it is refused when that value is below zero, which happens exactly
when the literal has a minus sign and does not round to `-0`. The children are the words between
the brackets, each read as a rule file token.

`RuleFile.Verdict t v` states, for the trimmed line `t`, the rule it gives or the first of the
seven checks that it fails, each outcome with every check before it passed. The reader gives
exactly that verdict (`RuleFile.ofLine?_eq_iff_verdict`).
-/

namespace Pcfg

namespace RuleFile

open Text

/-! ### The first match of a separator -/

/-- `t` is `a`, then `sep`, then `b`, and no match of `sep` starts inside `a`: `a` and `b` are
the text before and after the first match of `sep` in `t`. -/
def SplitsAtFirst (sep t a b : List Char) : Prop :=
  t = a ++ sep ++ b ∧ ∀ i < a.length, ¬ sep <+: t.drop i

variable {sep t a b : List Char}

theorem splitsAtFirst_of_splitFirst? (h : splitFirst? sep t = some (a, b)) :
    SplitsAtFirst sep t a b := by
  induction t generalizing a with
  | nil => simp [splitFirst?] at h
  | cons c cs ih =>
      unfold splitFirst? at h
      split_ifs at h with hc
      · -- the separator starts here
        obtain ⟨rfl, rfl⟩ := Prod.mk.inj (Option.some.inj h)
        obtain ⟨u, hu⟩ := List.isPrefixOf_iff_prefix.1 hc
        refine ⟨?_, by simp⟩
        rw [← hu]
        simp
      · -- it starts further on, after `c`
        obtain ⟨⟨a', b'⟩, hab, hu⟩ := Option.map_eq_some_iff.1 h
        obtain ⟨rfl, rfl⟩ := Prod.mk.inj hu
        obtain ⟨ht, hfirst⟩ := ih hab
        refine ⟨by rw [ht]; simp, ?_⟩
        intro i hi
        cases i with
        | zero => simpa [List.isPrefixOf_iff_prefix] using hc
        | succ j => simpa using hfirst j (by simpa using hi)

/-- The split is at the first match of the separator. -/
theorem splitFirst?_eq_some_iff (hsep : sep ≠ []) :
    splitFirst? sep t = some (a, b) ↔ SplitsAtFirst sep t a b := by
  refine ⟨splitsAtFirst_of_splitFirst?, ?_⟩
  rintro ⟨rfl, hfirst⟩
  apply splitFirst?_append_sep_append hsep
  intro i hi
  exact Bool.eq_false_iff.2 fun hp => hfirst i hi (by simpa [List.isPrefixOf_iff_prefix] using hp)

/-- There is no split exactly when the separator does not occur. -/
theorem splitFirst?_eq_none_iff (hsep : sep ≠ []) : splitFirst? sep t = none ↔ ¬ sep <:+: t := by
  constructor
  · intro h
    induction t with
    | nil => exact fun hinf => hsep (List.eq_nil_of_infix_nil hinf)
    | cons c cs ih =>
        unfold splitFirst? at h
        split_ifs at h with hc
        rw [List.infix_cons_iff, not_or]
        exact ⟨by simpa [List.isPrefixOf_iff_prefix] using hc, ih (by simpa using h)⟩
  · intro h
    rcases hs : splitFirst? sep t with _ | ⟨a, b⟩
    · rfl
    · obtain ⟨rfl, -⟩ := splitsAtFirst_of_splitFirst? hs
      exact absurd ⟨a, b, rfl⟩ h

/-! ### The probability -/

/-- The text of a probability that is read as the decimal `d`: number characters only, and a
decimal literal of value `d`. -/
def ProbText (p : List Char) (d : Decimal) : Prop :=
  Listing.NumberLike (String.ofList p) ∧ Decimal.Literal p d

/-- A text that is no decimal literal of number characters is refused as no number. -/
theorem readProb_of_not_probText {p : List Char} (h : ¬ ∃ d, ProbText p d) :
    readProb (String.ofList p) = .error .notNumber := by
  unfold readProb
  split_ifs with hn
  · rcases hd : Binary64.ofString? (String.ofList p) with _ | v
    · rfl
    · -- a text that is read is a literal
      obtain ⟨d, hd', -⟩ := Option.map_eq_some_iff.1 hd
      rw [Decimal.ofString?, String.toList_ofList, Decimal.ofChars?_eq_some_iff] at hd'
      exact absurd ⟨d, hn, hd'⟩ h
  · rfl

/-- A probability text is refused as negative when its value rounds below zero, and read as that
value otherwise. -/
theorem readProb_of_probText {p : List Char} {d : Decimal} (h : ProbText p d) :
    readProb (String.ofList p) =
      if d.negative = true ∧ d.toBinary64 ≠ Binary64.zero true then .error .negative
      else .ok d.toBinary64 := by
  have hread : Binary64.ofString? (String.ofList p) = some d.toBinary64 := by
    simp [Binary64.ofString?, Decimal.ofString?, Decimal.ofChars?_eq_some_iff.2 h.2]
  rw [readProb, if_pos h.1, hread]
  dsimp only
  by_cases hb : d.negative = true ∧ d.toBinary64 ≠ Binary64.zero true
  · rw [if_pos ((Decimal.toBinary64_lt_zero_iff d).2 hb), if_pos hb]
  · rw [if_neg (mt (Decimal.toBinary64_lt_zero_iff d).1 hb), if_neg hb]

/-! ### The verdict on a line -/

/-- The symbols between the brackets: the words of the text, each read as a rule file token. -/
def symbolsOf (children : List Char) : Rhs :=
  (Text.words (String.ofList children)).map Symbol.ofRuleToken

theorem symbolsOf_eq_nil_iff {children : List Char} :
    symbolsOf children = [] ↔ ∀ c ∈ children, isBlank c = true := by
  simp [symbolsOf, words_eq_nil_iff]

theorem symbolsOf_ne_nil_iff {children : List Char} :
    symbolsOf children ≠ [] ↔ ∃ c ∈ children, isBlank c = false := by
  simp [symbolsOf_eq_nil_iff]

/-- The line `t` is cut at its first `->[` into `tag` and a rest, and the rest at its first
`] : ` into `children` and `prob`. -/
def Cut (t tag children prob : List Char) : Prop :=
  ∃ rest, SplitsAtFirst "->[".toList t tag rest ∧ SplitsAtFirst "] : ".toList rest children prob

/-- What a trimmed line of a rule file gives: the rule, or the first check it fails. Each outcome
lists the checks before it as passed. -/
inductive Verdict : List Char → Except RuleError Rule → Prop where
  /-- No `->[`. -/
  | noOpen {t : List Char} : ¬ "->[".toList <:+: t → Verdict t (.error .noOpen)
  /-- No `] : ` after the first `->[`. -/
  | noClose {t tag rest : List Char} : SplitsAtFirst "->[".toList t tag rest →
      ¬ "] : ".toList <:+: rest → Verdict t (.error .noClose)
  /-- Nothing before the first `->[`. -/
  | emptyTag {t children prob : List Char} : Cut t [] children prob → Verdict t (.error .emptyTag)
  /-- The probability is no decimal literal of number characters. -/
  | notNumber {t tag children prob : List Char} : Cut t tag children prob → tag ≠ [] →
      (¬ ∃ d, ProbText prob d) → Verdict t (.error .notNumber)
  /-- The probability rounds below zero: a minus sign, and a value that does not round to
  `-0`. -/
  | negative {t tag children prob : List Char} {d : Decimal} : Cut t tag children prob →
      tag ≠ [] → ProbText prob d → d.negative = true → d.toBinary64 ≠ Binary64.zero true →
      Verdict t (.error .negative)
  /-- Only blanks between the brackets. -/
  | noChildren {t tag children prob : List Char} {d : Decimal} : Cut t tag children prob →
      tag ≠ [] → ProbText prob d → (d.negative = true → d.toBinary64 = Binary64.zero true) →
      (∀ c ∈ children, isBlank c = true) → Verdict t (.error .noChildren)
  /-- Children that mix words with non-terminals. -/
  | mixedChildren {t tag children prob : List Char} {d : Decimal} : Cut t tag children prob →
      tag ≠ [] → ProbText prob d → (d.negative = true → d.toBinary64 = Binary64.zero true) →
      (∃ c ∈ children, isBlank c = false) →
      ¬ (Production.mk (String.ofList tag) (symbolsOf children)).Homogeneous →
      Verdict t (.error .mixedChildren)
  /-- Every check passed: the rule of the tag, the children and the probability. -/
  | rule {t tag children prob : List Char} {d : Decimal} : Cut t tag children prob →
      tag ≠ [] → ProbText prob d → (d.negative = true → d.toBinary64 = Binary64.zero true) →
      (∃ c ∈ children, isBlank c = false) →
      (Production.mk (String.ofList tag) (symbolsOf children)).Homogeneous →
      Verdict t (.ok ⟨⟨String.ofList tag, symbolsOf children⟩, d.toBinary64⟩)

theorem Cut.open {t tag children prob : List Char} (h : Cut t tag children prob) :
    ∃ rest, splitFirst? "->[".toList t = some (tag, rest) ∧
      splitFirst? "] : ".toList rest = some (children, prob) := by
  obtain ⟨rest, ho, hc⟩ := h
  exact ⟨rest, (splitFirst?_eq_some_iff (by decide)).2 ho, (splitFirst?_eq_some_iff (by decide)).2 hc⟩

/-- The reader's verdict on a line is the verdict on its trimmed form. -/
theorem verdict_ofLine? (line : String) : Verdict (trimChars line.toList) (Rule.ofLine? line) := by
  unfold Rule.ofLine?
  rcases ho : splitFirst? "->[".toList (trimChars line.toList) with _ | ⟨tag, rest⟩
  · exact .noOpen ((splitFirst?_eq_none_iff (by decide)).1 ho)
  have hopen := splitsAtFirst_of_splitFirst? ho
  dsimp only
  rcases hc : splitFirst? "] : ".toList rest with _ | ⟨children, prob⟩
  · exact .noClose hopen ((splitFirst?_eq_none_iff (by decide)).1 hc)
  have hcut : Cut (trimChars line.toList) tag children prob :=
    ⟨rest, hopen, splitsAtFirst_of_splitFirst? hc⟩
  dsimp only
  by_cases htag : tag = []
  · subst htag
    exact .emptyTag hcut
  rw [if_neg htag]
  by_cases hp : ∃ d, ProbText prob d
  swap
  · rw [readProb_of_not_probText hp]
    exact .notNumber hcut htag hp
  obtain ⟨d, hd⟩ := hp
  rw [readProb_of_probText hd]
  by_cases hneg : d.negative = true ∧ d.toBinary64 ≠ Binary64.zero true
  · rw [if_pos hneg]
    exact .negative hcut htag hd hneg.1 hneg.2
  rw [if_neg hneg]
  have hnn : d.negative = true → d.toBinary64 = Binary64.zero true := fun hn =>
    not_not.1 fun hz => hneg ⟨hn, hz⟩
  dsimp only
  split_ifs with hs hh
  · exact .noChildren hcut htag hd hnn (symbolsOf_eq_nil_iff.1 hs)
  · exact .rule hcut htag hd hnn (symbolsOf_ne_nil_iff.1 hs) hh
  · exact .mixedChildren hcut htag hd hnn (symbolsOf_ne_nil_iff.1 hs) hh

/-- A verdict on a trimmed line is the reader's. -/
theorem ofLine?_of_verdict {line : String} {v : Except RuleError Rule}
    (h : Verdict (trimChars line.toList) v) : Rule.ofLine? line = v := by
  unfold Rule.ofLine?
  cases h with
  | noOpen hn => rw [(splitFirst?_eq_none_iff (by decide)).2 hn]
  | noClose ho hn =>
      rw [(splitFirst?_eq_some_iff (by decide)).2 ho]
      dsimp only
      rw [(splitFirst?_eq_none_iff (by decide)).2 hn]
  | emptyTag hcut =>
      obtain ⟨rest, ho, hc⟩ := hcut.open
      simp only [ho, hc, if_true]
  | notNumber hcut htag hp =>
      obtain ⟨rest, ho, hc⟩ := hcut.open
      simp only [ho, hc, if_neg htag, readProb_of_not_probText hp]
  | negative hcut htag hd hneg hne =>
      obtain ⟨rest, ho, hc⟩ := hcut.open
      simp only [ho, hc, if_neg htag, readProb_of_probText hd, if_pos (And.intro hneg hne)]
  | @noChildren _ children _ d hcut htag hd hnn hblank =>
      obtain ⟨rest, ho, hc⟩ := hcut.open
      have hneg : ¬ (d.negative = true ∧ d.toBinary64 ≠ Binary64.zero true) := fun h => h.2 (hnn h.1)
      have hs : (words (String.ofList children)).map Symbol.ofRuleToken = [] :=
        symbolsOf_eq_nil_iff.2 hblank
      simp only [ho, hc, if_neg htag, readProb_of_probText hd, if_neg hneg]
      rw [if_pos hs]
  | @mixedChildren _ children _ d hcut htag hd hnn hsome hh =>
      obtain ⟨rest, ho, hc⟩ := hcut.open
      have hneg : ¬ (d.negative = true ∧ d.toBinary64 ≠ Binary64.zero true) := fun h => h.2 (hnn h.1)
      have hs : (words (String.ofList children)).map Symbol.ofRuleToken ≠ [] :=
        symbolsOf_ne_nil_iff.2 hsome
      unfold symbolsOf at hh
      simp only [ho, hc, if_neg htag, readProb_of_probText hd, if_neg hneg]
      rw [if_neg hs, if_neg hh]
  | @rule _ children _ d hcut htag hd hnn hsome hh =>
      obtain ⟨rest, ho, hc⟩ := hcut.open
      have hneg : ¬ (d.negative = true ∧ d.toBinary64 ≠ Binary64.zero true) := fun h => h.2 (hnn h.1)
      have hs : (words (String.ofList children)).map Symbol.ofRuleToken ≠ [] :=
        symbolsOf_ne_nil_iff.2 hsome
      unfold symbolsOf at hh ⊢
      simp only [ho, hc, if_neg htag, readProb_of_probText hd, if_neg hneg]
      rw [if_neg hs, if_pos hh]

/-- The reader gives exactly the verdict on the trimmed line: the rule when every check passes,
and otherwise the first check that fails. -/
theorem ofLine?_eq_iff_verdict (line : String) (v : Except RuleError Rule) :
    Rule.ofLine? line = v ↔ Verdict (trimChars line.toList) v :=
  ⟨fun h => h ▸ verdict_ofLine? line, ofLine?_of_verdict⟩

/-- `-0` is not below zero, so its rule is read; `-1` is refused as negative. -/
example : (Rule.ofLine? "S->[A] : -0").toOption =
      some ⟨⟨"S", [.nonterminal "A"]⟩, Binary64.zero true⟩ ∧
    (Rule.ofLine? "S->[A] : -1" matches .error .negative) := by
  decide +kernel

end RuleFile

end Pcfg
