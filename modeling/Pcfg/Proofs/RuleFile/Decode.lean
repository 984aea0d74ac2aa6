import Mathlib
import Pcfg.Proofs.Decimal.SixPlaces
import Pcfg.Proofs.RuleFile.Rule
/-!
# Reading back the line of any rule

A rule is written as `TAG->[RHS] : P`, with `P` the six-place text of its probability. The
reader trims the line, cuts it at the first `->[` and then at the first `] : `, reads the
symbols of the right-hand side as rule file tokens and the probability as a decimal literal.
All of this undoes the writing under conditions on the rule alone:

* the tag is not empty, does not start with a blank and holds no `->[`, so the trimming keeps it
  and the first `->[` is the one after it;
* the symbols are written as nonempty texts without blanks, so the words of the right-hand side
  are their texts; a name that is no word does not start with `_`, so a token is read back as a
  word exactly when it was one;
* the right-hand side holds no `] : `. Neither separator overlaps itself
  (`RuleFile.splitFirst?_of_not_infix`), so then the first `] : ` is the one after it;
* the probability is finite and not below zero, so its text is a decimal literal of number
  characters that the reader accepts, `-0` included (`Binary64.readProb_sixPlaces_of_not_lt`).

Main statement: `RuleFile.ofLine?_reads_written_rule`.
-/

namespace Pcfg

open Text

/-! ### Probabilities that are not below zero -/

namespace Binary64

/-- A finite value of negative sign that is not below `+0` is `-0`. -/
theorem significand_eq_zero_of_not_lt {x : Binary64} {m : Nat} {q : Int}
    (hx : x.datum = .finite true m q) (h : x.lt (zero false) = false) : m = 0 := by
  have hz : (zero false).datum = .finite false 0 (-1074) := by decide
  have hpow : 0 < Nat.pow 2 (q - min q (-1074)).toNat := Nat.pow_pos (by decide)
  simp only [lt, compare?, hx, hz, signed, if_true, Bool.false_eq_true, if_false, Nat.zero_mul,
    Nat.cast_zero, Option.some.injEq, Int.compare_eq_lt, decide_eq_false_iff_not, Left.neg_neg_iff,
    Nat.cast_pos] at h
  by_contra hm
  exact h (Nat.mul_pos (Nat.pos_of_ne_zero hm) hpow)

/-- The six-place text of `-0`. -/
theorem toSixPlaces_of_negative_zero {x : Binary64} {q : Int} (hx : x.datum = .finite true 0 q) :
    x.toSixPlaces = "-0.000000e+00" := by
  simp only [toSixPlaces, hx, ↓reduceIte]
  decide

/-- The six-place text of a finite value that is not below zero is taken by the reader of
probabilities, as the value of its decimal literal. -/
theorem readProb_sixPlaces_of_not_lt {x : Binary64} (hfin : x.IsFinite)
    (hnn : x.lt (zero false) = false) :
    ∃ p, RuleFile.readProb x.toSixPlaces = .ok p ∧ Binary64.ofString? x.toSixPlaces = some p := by
  obtain ⟨m, q, hx⟩ := datum_of_field_ne hfin
  cases hs : x.negative
  · rw [hs] at hx
    exact readProb_sixPlaces hx
  · -- the only such value of negative sign is `-0`, written `-0.000000e+00`
    rw [hs] at hx
    obtain rfl := significand_eq_zero_of_not_lt hx hnn
    rw [toSixPlaces_of_negative_zero hx]
    exact ⟨zero true, by decide, by decide⟩

end Binary64

namespace RuleFile

/-! ### One line -/

/-- A rule line is read back with its tag, the symbols that the texts of its right-hand side
stand for, and the probability its text reads as, when the separators fall where they were
written and the symbols are written as words. -/
theorem ofLine?_eq_ok {tag : String} {r : Rhs} {p : String} {prob : Binary64}
    (htag : ∃ c cs, tag.toList = c :: cs ∧ isBlank c = false)
    (hopen : ¬ "->[".toList <:+: tag.toList)
    (htext : ∀ s ∈ r, s.text.toList ≠ [] ∧ Blankless s.text.toList)
    (hclose : ¬ "] : ".toList <:+: r.text.toList)
    (hr : r ≠ []) (hhom : (Production.mk tag r).Homogeneous)
    (hname : ∀ s ∈ r, s.isTerminal = false → s.name.toList.head? ≠ some '_')
    (hp : readProb p = .ok prob) :
    Rule.ofLine? (tag ++ "->[" ++ r.text ++ "] : " ++ p) =
      .ok ⟨⟨tag, r.map fun s => Symbol.ofRuleToken s.text⟩, prob⟩ := by
  have hhom' : (Production.mk tag (r.map fun s => Symbol.ofRuleToken s.text)).Homogeneous :=
    Production.homogeneous_of_key_eq (Rhs.key_map_ofRuleToken_text hname).symm hhom
  have hne : r.map (fun s => Symbol.ofRuleToken s.text) ≠ [] := by simpa using hr
  have hwords : Text.words r.text = r.map Symbol.text :=
    words_intercalate fun w hw => by
      obtain ⟨s, hs, rfl⟩ := List.mem_map.1 hw
      exact htext s hs
  have htag_ne : tag.toList ≠ [] := by
    obtain ⟨c, cs, hcs, -⟩ := htag
    simp [hcs]
  have hline : (tag ++ "->[" ++ r.text ++ "] : " ++ p).toList =
      tag.toList ++ "->[".toList ++ (r.text.toList ++ "] : ".toList ++ p.toList) := by
    simp only [String.toList_append, List.append_assoc]
  have hsplit : splitFirst? "] : ".toList (r.text.toList ++ "] : ".toList ++ p.toList) =
      some (r.text.toList, p.toList) :=
    splitFirst?_of_not_infix (by decide) (by decide) hclose _
  rw [Rule.ofLine?, trimChars_rule_of_head htag hp, hline, splitFirst?_open hopen]
  simp only [hsplit, htag_ne, if_false, String.ofList_toList, hp, hwords, List.map_map, Function.comp_def]
  rw [if_neg hne, if_pos hhom']

/-- The line written for any rule is read back as that rule: with its tag, with symbols of the
same kinds and names, and with the value of the decimal literal of its probability, rounded. The
tag is a nonempty text that starts with no blank and holds no `->[`; the symbols are written as
words without blanks, a name that is no word does not start with `_`, and the right-hand side is
nonempty, homogeneous and holds no `] : `; the probability is finite and not below zero. -/
theorem ofLine?_reads_written_rule {l : String} {rhs : Rhs} {x : Binary64}
    (hl : ∃ c cs, l.toList = c :: cs ∧ isBlank c = false) (hopen : ¬ "->[".toList <:+: l.toList)
    (htext : ∀ s ∈ rhs, s.text.toList ≠ [] ∧ Blankless s.text.toList)
    (hname : ∀ s ∈ rhs, s.isTerminal = false → s.name.toList.head? ≠ some '_')
    (hne : rhs ≠ []) (hhom : (Production.mk l rhs).Homogeneous)
    (hclose : ¬ "] : ".toList <:+: rhs.text.toList)
    (hfin : x.IsFinite) (hnn : x.lt (Binary64.zero false) = false) :
    ∃ R, Rule.ofLine? (l ++ "->[" ++ rhs.text ++ "] : " ++ x.toSixPlaces) = .ok R ∧
      R.production.lhs = l ∧ R.production.rhs.key = rhs.key ∧
      ∃ d, Decimal.ofString? x.toSixPlaces = some d ∧ R.prob = d.toBinary64 := by
  obtain ⟨p, hp, hval⟩ := Binary64.readProb_sixPlaces_of_not_lt hfin hnn
  obtain ⟨d, hd, rfl⟩ := Option.map_eq_some_iff.1 hval
  exact ⟨_, ofLine?_eq_ok hl hopen htext hclose hne hhom hname hp, rfl,
    Rhs.key_map_ofRuleToken_text hname, d, hd, rfl⟩

/-- A rule of a non-terminal and a preterminal, written with the share of each of three
expansions, is read back. -/
theorem ofLine?_reads_written_verb_phrase :
    ∃ R, Rule.ofLine? ("VP" ++ "->[" ++ Rhs.text [.nonterminal "VB", .preterminal "P_DOG"] ++
        "] : " ++ (uniformShare 3).toSixPlaces) = .ok R ∧
      R.production.lhs = "VP" ∧
      R.production.rhs.key = Rhs.key [.nonterminal "VB", .preterminal "P_DOG"] ∧
      ∃ d, Decimal.ofString? (uniformShare 3).toSixPlaces = some d ∧ R.prob = d.toBinary64 :=
  ofLine?_reads_written_rule ⟨'V', ['P'], rfl, by decide⟩ (by decide) (by decide) (by decide)
    (by decide) (by decide) (by decide) (by decide +kernel) (by decide +kernel)

end RuleFile

end Pcfg
