import Mathlib
import Pcfg.Proofs.Grammar.Reference
import Pcfg.Conversion
/-!
# Which listings are accepted

A listing whose lines are all read is accepted exactly when every tag of a preterminal rule
synthesized for its words ends with a single expansion among all its rules; the conversion then
ends with the grammar of those rules (`Grammar.ofRules`) and has counted every line.

Feeding lines that are all read is running the calls of their rules one after the other
(`Conversion.feedAll_eq_ok_iff`), so this is `Grammar.runCalls_empty_eq_ofRules` read back in
terms of the rules of the lines (`Grammar.Call.rules_flatMap`).

Main statement: `Conversion.feedAll_accepts_iff_single_expansions`.
-/

namespace Pcfg

namespace Grammar

/-- The rules of the calls of a line: its preterminal rules, then its own rule. -/
@[simp] theorem Call.rules_ofLine (r : LineRules) :
    Call.rules (Call.ofLine r) = r.preterminals ++ [r.main] := by
  simp [Call.rules, Call.ofLine, Function.comp_def]

/-- The preterminal rules of the calls of a line are its preterminal rules. -/
@[simp] theorem Call.preterminalRules_ofLine (r : LineRules) :
    Call.preterminalRules (Call.ofLine r) = r.preterminals := by
  simp [Call.preterminalRules, Call.ofLine, List.filter_map, Function.comp_def]

theorem Call.rules_flatMap {α : Type} (f : α → List Call) (l : List α) :
    Call.rules (l.flatMap f) = l.flatMap fun a => Call.rules (f a) := by
  induction l with
  | nil => rfl
  | cons a l ih => simp [ih]

theorem Call.preterminalRules_flatMap {α : Type} (f : α → List Call) (l : List α) :
    Call.preterminalRules (l.flatMap f) = l.flatMap fun a => Call.preterminalRules (f a) := by
  induction l with
  | nil => rfl
  | cons a l ih => simp [ih]

end Grammar

namespace Conversion

variable {c c' : Conversion} {l : String} {L : Listing.Line}

/-- Feeding a line that is read runs the calls of its rules; the line counts when they all
succeed. -/
theorem feed_of_ofString? (hl : Listing.Line.ofString? l = .ok L) :
    c.feed l =
      match c.grammar.runCalls (Grammar.Call.ofLine L.homogenize) with
      | (g, some k) => ({ c with grammar := g }, some (.preterminalConflict (c.lines + 1) k))
      | (g, none) => (⟨g, c.lines + 1⟩, none) := by
  rw [← Grammar.addLine_eq_runCalls]
  rcases h : c.grammar.addLine L.homogenize with ⟨g, _ | k⟩ <;> simp [feed, hl, h]

/-- Feeding lines that are all read succeeds exactly when the calls of all their rules do, and
then ends in the grammar of those calls with every line counted. -/
theorem feedAll_eq_ok_iff {ls : List String} {Ls : List Listing.Line}
    (hparse : ls.map Listing.Line.ofString? = Ls.map Except.ok) :
    c.feedAll (ls.map some) = .ok c' ↔
      c.grammar.runCalls (Ls.flatMap fun L => Grammar.Call.ofLine L.homogenize) =
        (c'.grammar, none) ∧ c'.lines = c.lines + ls.length := by
  -- induction on the lines, for every state before them
  induction ls generalizing c Ls with
  | nil =>
      obtain rfl : Ls = [] := List.map_eq_nil_iff.1 hparse.symm
      simp only [List.map_nil, feedAll, List.flatMap_nil, Grammar.runCalls, List.length_nil,
        Nat.add_zero, Except.ok.injEq, Prod.mk.injEq, and_true]
      constructor
      · rintro rfl
        exact ⟨rfl, rfl⟩
      · rintro ⟨hg, hl⟩
        cases c
        cases c'
        simp_all
  | cons l ls ih =>
      cases Ls with
      | nil => simp at hparse
      | cons L Ls =>
          simp only [List.map_cons, List.cons.injEq] at hparse
          obtain ⟨hl, hrest⟩ := hparse
          simp only [List.map_cons, feedAll, feed_of_ofString? hl, List.flatMap_cons,
            Grammar.runCalls_append, List.length_cons]
          rcases c.grammar.runCalls (Grammar.Call.ofLine L.homogenize) with ⟨g, _ | k⟩
          · -- the line is accepted: the rest is fed from its grammar, one line more counted
            rw [ih hrest]
            constructor <;> rintro ⟨hg, hn⟩ <;> exact ⟨hg, by simp only at hn ⊢; omega⟩
          · -- the line is refused, and so is the listing
            simp

/-- A line that is fed without an error is read. -/
theorem ofString?_of_feed (h : (c.feed l).2 = none) : ∃ L, Listing.Line.ofString? l = .ok L := by
  unfold feed at h
  split at h
  · cases h
  · exact ⟨_, ‹_›⟩

/-- A listing that is accepted is made of lines that are all valid text and all read. -/
theorem exists_lines_of_feedAll_ok {xs : List (Option String)} (h : c.feedAll xs = .ok c') :
    ∃ (ls : List String) (Ls : List Listing.Line),
      xs = ls.map some ∧ ls.map Listing.Line.ofString? = Ls.map Except.ok := by
  induction xs generalizing c with
  | nil => exact ⟨[], [], rfl, rfl⟩
  | cons x xs ih =>
      cases x with
      | none => cases h
      | some l =>
          simp only [feedAll] at h
          split at h
          · rename_i c'' hfeed
            obtain ⟨L, hL⟩ := ofString?_of_feed (c := c) (l := l) (by rw [hfeed])
            obtain ⟨ls, Ls, rfl, hparse⟩ := ih h
            exact ⟨l :: ls, L :: Ls, rfl, by simp [hL, hparse]⟩
          · cases h

/-- An accepted listing whose lines are all read ends in the grammar of its rules. -/
theorem grammar_of_feedAll_ok {ls : List String} {Ls : List Listing.Line}
    (hparse : ls.map Listing.Line.ofString? = Ls.map Except.ok)
    (hc : feedAll {} (ls.map some) = .ok c) :
    c.grammar = Grammar.ofRules (Ls.flatMap fun L => L.homogenize.preterminals ++ [L.homogenize.main])
      (Ls.flatMap fun L => L.homogenize.preterminals) := by
  have hrun := (feedAll_eq_ok_iff hparse).1 hc
  have hof := (Grammar.runCalls_empty_eq_ofRules
    (Ls.flatMap fun L => Grammar.Call.ofLine L.homogenize)).2 (by rw [hrun.1])
  rw [hrun.1] at hof
  simpa [Grammar.Call.rules_flatMap, Grammar.Call.preterminalRules_flatMap] using hof

/-- A listing whose lines are all read has the rules `S`, each line's preterminal rules and then
its own rule, of which `P` are the preterminal rules. It is accepted exactly when every tag of a
rule of `P` has a single expansion among the rules of `S`. It then counts every line, has the
tags of `S`, each with its distinct expansions in order of first occurrence, marks the tags of
`P`, and is written as the rule file of those expansions with tags in increasing order. -/
theorem feedAll_accepts_iff_single_expansions (ls : List String) (Ls : List Listing.Line)
    (hparse : ls.map Listing.Line.ofString? = Ls.map Except.ok) :
    let S := Ls.flatMap fun L => L.homogenize.preterminals ++ [L.homogenize.main]
    let P := Ls.flatMap fun L => L.homogenize.preterminals
    ((∃ c, feedAll {} (ls.map some) = .ok c) ↔ Grammar.SingleExpansions S P) ∧
    (Grammar.SingleExpansions S P → ∃ c, feedAll {} (ls.map some) = .ok c ∧
      c.lines = ls.length ∧
      (∀ t, c.grammar.expansions? t =
        if t ∈ S.map (·.lhs) then some (Grammar.expansionsIn S t) else none) ∧
      (∀ t, c.grammar.isPreterminal t = true ↔ t ∈ P.map (·.lhs)) ∧
      c.grammar.toRuleFile = String.join ((Grammar.tagsIn S).flatMap fun t =>
        (Grammar.expansionsIn S t).map fun r =>
          ruleLine t r (uniformShare (Grammar.expansionsIn S t).length).toSixPlaces)) := by
  intro S P
  -- the calls of the lines, and what they run to from the empty grammar
  have hrules : Grammar.Call.rules (Ls.flatMap fun L => Grammar.Call.ofLine L.homogenize) = S := by
    simp [Grammar.Call.rules_flatMap, S]
  have hpre :
      Grammar.Call.preterminalRules (Ls.flatMap fun L => Grammar.Call.ofLine L.homogenize) = P := by
    simp [Grammar.Call.preterminalRules_flatMap, P]
  have hrun := Grammar.runCalls_empty_eq_ofRules (Ls.flatMap fun L => Grammar.Call.ofLine L.homogenize)
  rw [hrules, hpre] at hrun
  set g := Grammar.runCalls {} (Ls.flatMap fun L => Grammar.Call.ofLine L.homogenize) with hg
  have hfeed : ∀ c, feedAll {} (ls.map some) = .ok c ↔ g = (c.grammar, none) ∧ c.lines = ls.length := by
    intro c
    rw [feedAll_eq_ok_iff hparse]
    simp [hg]
  have hok : Grammar.SingleExpansions S P → feedAll {} (ls.map some) = .ok ⟨g.1, ls.length⟩ :=
    fun hs => (hfeed _).2 ⟨Prod.ext rfl (hrun.1.2 hs), rfl⟩
  have hsub : ∀ p ∈ P, p ∈ S := by
    intro p hp
    obtain ⟨L, hL, hp⟩ := List.mem_flatMap.1 hp
    exact List.mem_flatMap.2 ⟨L, hL, List.mem_append_left _ hp⟩
  refine ⟨⟨?_, fun hs => ⟨_, hok hs⟩⟩, fun hs => ?_⟩
  · rintro ⟨c, hc⟩
    exact hrun.1.1 (by rw [((hfeed c).1 hc).1])
  · -- accepted: the grammar is that of the rules
    have hof : g.1 = Grammar.ofRules S P := hrun.2 (hrun.1.2 hs)
    refine ⟨⟨g.1, ls.length⟩, hok hs, rfl, fun t => ?_, fun t => ?_, ?_⟩
    · rw [hof, Grammar.expansions?_ofRules]
    · rw [hof]
      exact Grammar.isPreterminal_ofRules_iff hsub t
    · rw [hof, Grammar.toRuleFile_ofRules]

/-- Two lines that share a word are read, and the acceptance statement holds of them. -/
theorem feedAll_accepts_shared_word :
    ["NP --> DT dog", "VP --> VB dog"].map Listing.Line.ofString? =
        [(⟨.plain, "NP", ["DT", "dog"]⟩ : Listing.Line), ⟨.plain, "VP", ["VB", "dog"]⟩].map
          Except.ok ∧
      let S := [(⟨.plain, "NP", ["DT", "dog"]⟩ : Listing.Line), ⟨.plain, "VP", ["VB", "dog"]⟩].flatMap
        fun L => L.homogenize.preterminals ++ [L.homogenize.main]
      let P := [(⟨.plain, "NP", ["DT", "dog"]⟩ : Listing.Line), ⟨.plain, "VP", ["VB", "dog"]⟩].flatMap
        fun L => L.homogenize.preterminals
      ((∃ c, feedAll {} (["NP --> DT dog", "VP --> VB dog"].map some) = .ok c) ↔
        Grammar.SingleExpansions S P) ∧
      (Grammar.SingleExpansions S P →
        ∃ c, feedAll {} (["NP --> DT dog", "VP --> VB dog"].map some) = .ok c ∧
        c.lines = ["NP --> DT dog", "VP --> VB dog"].length ∧
        (∀ t, c.grammar.expansions? t =
          if t ∈ S.map (·.lhs) then some (Grammar.expansionsIn S t) else none) ∧
        (∀ t, c.grammar.isPreterminal t = true ↔ t ∈ P.map (·.lhs)) ∧
        c.grammar.toRuleFile = String.join ((Grammar.tagsIn S).flatMap fun t =>
          (Grammar.expansionsIn S t).map fun r =>
            ruleLine t r (uniformShare (Grammar.expansionsIn S t).length).toSixPlaces)) :=
  ⟨rfl, feedAll_accepts_iff_single_expansions _ _ rfl⟩

end Conversion

end Pcfg
