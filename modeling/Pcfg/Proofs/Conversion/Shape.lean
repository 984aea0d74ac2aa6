import Mathlib
import Pcfg.Proofs.Conversion.Acceptance
import Pcfg.Proofs.Listing.Homogenize
import Pcfg.Proofs.RuleFile.Rule
/-!
# The shape of an accepted grammar

Every rule that a listing line gives is shaped as a listing writes it (`Production.Listed`): its
tag is a word of the line, and its right-hand side is a nonempty homogeneous list of symbols,
each a word of the line or the preterminal named after one. An accepted listing ends in the
grammar of those rules (`Conversion.grammar_of_feedAll_ok`), so the entries of its grammar are in
tag order and each has expansions, every one of them shaped so with the entry's tag
(`Grammar.Entry.Listed`).

This is what writing the grammar as a rule file and reading it back relies on.

Main statement: `Conversion.listed_of_ofBytes`.
-/

namespace Pcfg

open Text

/-- A rule as a grammar listing gives it: a tag that is a word, and a nonempty homogeneous
right-hand side of symbols as a listing gives them. -/
structure Production.Listed (p : Production) : Prop where
  /-- The tag is a nonempty word without blanks. -/
  tag : p.lhs.toList ≠ [] ∧ Blankless p.lhs.toList
  /-- There is a symbol on the right. -/
  rhs_ne_nil : p.rhs ≠ []
  /-- Words are not mixed with non-terminals. -/
  homogeneous : p.Homogeneous
  /-- Every symbol is as a listing gives it. -/
  symbols : ∀ s ∈ p.rhs, s.Listed

/-! ### Symbols and rules of a line -/

namespace Symbol

theorem listed_ofListingToken {t : String} (ht : Blankless t.toList) :
    (ofListingToken t).Listed := by
  unfold ofListingToken
  split_ifs with h
  · exact ⟨ht, fun _ => h⟩
  · exact ⟨ht, fun h' => absurd h' (by simp [isTerminal])⟩

/-- The preterminal of a word without blanks is named by a word that starts with `P`. -/
theorem listed_preterminalOf {w : String} (hw : Blankless w.toList) : (preterminalOf w).Listed := by
  have hname : (preterminalOf w).name.toList = 'P' :: '_' :: (upper w).toList := by
    simp [preterminalOf, name]
  refine ⟨?_, fun _ => ⟨'P', _, hname, by decide⟩⟩
  rw [hname, blankless_cons, blankless_cons]
  exact ⟨by decide, by decide, blankless_upper hw⟩

end Symbol

namespace Listing

theorem listed_wrapWord {s : Symbol} (h : s.Listed) : (wrapWord s).Listed := by
  cases s with
  | terminal w => exact Symbol.listed_preterminalOf h.blankless
  | nonterminal n => exact h
  | preterminal n => exact h

theorem listed_preterminalRule {w : String} (hw : Blankless w.toList) :
    (preterminalRule w).Listed := by
  have hpre := Symbol.listed_preterminalOf hw
  refine ⟨⟨?_, hpre.blankless⟩, by simp [preterminalRule], homogeneous_singleton _ _, ?_⟩
  · obtain ⟨c, cs, hcs, -⟩ := hpre.startsUpper rfl
    simp [preterminalRule, hcs]
  · intro s hs
    obtain rfl : s = .terminal w := by simpa [preterminalRule] using hs
    exact ⟨hw, fun h => absurd h (by simp)⟩

/-- The own rule of a line keeps the symbols of its children, wrapped or not. -/
theorem listed_main {l : Line} (hl : ∀ s ∈ l.children.map Symbol.ofListingToken, s.Listed) :
    ∀ s ∈ l.homogenize.main.rhs, s.Listed := by
  by_cases hlen : 1 < l.children.length
  · rw [homogenize_of_one_lt hlen]
    intro s hs
    obtain ⟨s', hs', rfl⟩ := List.mem_map.1 hs
    exact listed_wrapWord (hl s' hs')
  · rw [homogenize_of_le_one (Nat.not_lt.1 hlen)]
    exact hl

/-- Every rule of a line that is read is shaped as a listing writes it: the words of the line
are the tag and the children, and the preterminal rules are those of children. -/
theorem Line.listed_of_ofString? {s : String} {l : Line} (h : Line.ofString? s = .ok l) :
    ∀ p ∈ l.homogenize.preterminals ++ [l.homogenize.main], p.Listed := by
  obtain ⟨htag, hchildren⟩ := Line.words_of_ofString? h
  have hword : ∀ w ∈ l.children, w.toList ≠ [] ∧ Blankless w.toList :=
    fun w hw => blankless_of_mem_words (hchildren w hw)
  have hsyms : ∀ s ∈ l.children.map Symbol.ofListingToken, s.Listed := by
    intro s hs
    obtain ⟨w, hw, rfl⟩ := List.mem_map.1 hs
    exact Symbol.listed_ofListingToken (hword w hw).2
  intro p hp
  rcases List.mem_append.1 hp with hp | hp
  · obtain ⟨w, hw, rfl⟩ := exists_child_of_mem_preterminals hp
    exact listed_preterminalRule (hword w hw).2
  · obtain rfl := List.mem_singleton.1 hp
    obtain ⟨hne, hhom⟩ := main_homogeneous (Line.children_ne_nil_of_ofString? h)
    exact ⟨by simpa using blankless_of_mem_words htag, hne, hhom, listed_main hsyms⟩

end Listing

/-! ### Entries of the grammar of shaped rules -/

namespace Grammar

/-- An entry as an accepted listing leaves it: it has an expansion, and each expansion makes a
rule shaped as a listing writes it with the entry's tag. -/
structure Entry.Listed (e : Entry) : Prop where
  /-- The tag has an expansion. -/
  nonempty : e.expansions ≠ []
  /-- Every expansion is shaped as a listing writes it. -/
  rules : ∀ r ∈ e.expansions, (Production.mk e.tag r).Listed

/-- The grammar of shaped rules has shaped entries: each expansion is the right-hand side of
one of the rules of its tag. -/
theorem entries_listed_ofRules {S P : List Production} (hS : ∀ p ∈ S, p.Listed) :
    ∀ e ∈ (ofRules S P).entries, e.Listed := by
  intro e he
  obtain ⟨t, ht, rfl⟩ := mem_entries_ofRules.1 he
  refine ⟨fun hnil => expansionsIn_eq_nil.1 hnil ht, fun r hr => ?_⟩
  obtain ⟨p, hp, rfl, rfl⟩ := exists_rule_of_mem_expansionsIn hr
  exact hS p hp

end Grammar

/-! ### An accepted listing -/

namespace Conversion

/-- A listing that is accepted ends in a grammar whose entries are in tag order and shaped as a
listing writes its rules. -/
theorem listed_of_ofBytes {bs : ByteArray} {c : Conversion} (hc : ofBytes bs = .ok c) :
    c.grammar.Sorted ∧ ∀ e ∈ c.grammar.entries, e.Listed := by
  obtain ⟨ls, Ls, hls, hparse⟩ := exists_lines_of_feedAll_ok hc
  rw [ofBytes, hls] at hc
  rw [grammar_of_feedAll_ok hparse hc]
  refine ⟨Grammar.sorted_ofRules _ _, Grammar.entries_listed_ofRules ?_⟩
  -- every rule comes from a line that is read
  intro p hp
  obtain ⟨L, hL, hp⟩ := List.mem_flatMap.1 hp
  obtain ⟨l, -, hl⟩ : ∃ l ∈ ls, Listing.Line.ofString? l = .ok L := by
    have hmem : (Except.ok L : Except Listing.LineError Listing.Line) ∈ ls.map Listing.Line.ofString? := by
      rw [hparse]
      exact List.mem_map_of_mem hL
    simpa using hmem
  exact Listing.Line.listed_of_ofString? hl p hp

end Conversion

end Pcfg
