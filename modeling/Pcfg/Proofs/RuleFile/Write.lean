import Mathlib
import Pcfg.Proofs.Grammar.Reference
import Pcfg.Proofs.RuleFile.RoundTrip
import Pcfg.Proofs.Text.ByteOrder
/-!
# The rule file of every grammar

Whatever calls are made from the empty grammar, refused ones included, the rule file has one block
per tag, the tags in strictly increasing order of their UTF-8 bytes, and in the block of a tag one
line per expansion, in the order the expansions were first added, each line carrying the share of
the tag's expansion count. The number of lines is the number of rules, and the file depends only
on which tags have which expansions, not on the history that built them.

The replay keeps only the calls it accepts (`Grammar.acceptedCalls`): those calls, run from the
empty grammar, all go through and build the same grammar (`Grammar.runCalls_acceptedCalls`), which
is the grammar of their rules (`Grammar.replay_eq_ofRules`). The rule file of that grammar is known
(`Grammar.toRuleFile_ofRules`), and its tags are in the order of texts, which is the order of their
bytes (`Text.lt_iff_bytes_lt`).

Main statement: `Grammar.replay_writes_tags_in_byte_order`.
-/

namespace Pcfg

namespace Grammar

/-! ### The calls a replay accepts -/

/-- The calls that a replay from `g` accepts, in order. -/
def acceptedCalls : Grammar → List Call → List Call
  | _, [] => []
  | g, c :: cs =>
    match c.apply g with
    | .ok (_, g') => c :: acceptedCalls g' cs
    | .error _ => acceptedCalls g cs

/-- The accepted calls, made on their own, all go through to the grammar of the replay: a refused
call leaves the grammar as it was. -/
theorem runCalls_acceptedCalls (g : Grammar) (cs : List Call) :
    runCalls g (acceptedCalls g cs) = (replay g cs, none) := by
  induction cs generalizing g with
  | nil => rfl
  | cons c cs ih =>
      rcases h : c.apply g with k | ⟨b, g'⟩
      · simp [acceptedCalls, h, Call.next, ih]
      · simp [acceptedCalls, h, runCalls, Call.next, ih]

/-- The grammar of any calls from the empty grammar is the grammar of the rules it accepted. -/
theorem replay_eq_ofRules (cs : List Call) :
    replay {} cs =
      ofRules (Call.rules (acceptedCalls {} cs)) (Call.preterminalRules (acceptedCalls {} cs)) := by
  have h := runCalls_empty_eq_ofRules (acceptedCalls {} cs)
  rw [runCalls_acceptedCalls] at h
  exact h.2 rfl

/-! ### Lines and rules -/

/-- One line is written for each rule. -/
theorem length_ruleLines (g : Grammar) : g.ruleLines.length = g.ruleCount := by
  rw [← length_writtenRules]
  simp [ruleLines, writtenRules, Entry.ruleLines, List.length_flatMap]

theorem ruleLines_ofRules (S P : List Production) :
    (ofRules S P).ruleLines = (tagsIn S).flatMap fun t =>
      (expansionsIn S t).map fun r => ruleLine t r (uniformShare (expansionsIn S t).length).toSixPlaces := by
  simp only [ruleLines, ofRules, List.flatMap_map]
  rfl

/-- Two grammars of rules with the same expansions for every tag write the same lines: the tags are
the same increasing list, and each writes the same block. -/
theorem ruleLines_ofRules_eq {S P S' P' : List Production}
    (h : ∀ t, (ofRules S P).expansions? t = (ofRules S' P').expansions? t) :
    (ofRules S P).ruleLines = (ofRules S' P').ruleLines := by
  have hmem : ∀ t, t ∈ S.map (·.lhs) ↔ t ∈ S'.map (·.lhs) := by
    intro t
    have ht := h t
    rw [expansions?_ofRules, expansions?_ofRules] at ht
    by_cases h1 : t ∈ S.map (·.lhs) <;> by_cases h2 : t ∈ S'.map (·.lhs) <;>
      simp only [h1, h2, if_true, if_false, reduceCtorEq, iff_self] at ht ⊢
  have htags : tagsIn S = tagsIn S' :=
    eq_of_pairwise_lt_of_mem_iff (tagsIn_sorted S) (tagsIn_sorted S')
      fun t => by rw [mem_tagsIn, mem_tagsIn, hmem]
  -- on a tag of both, the expansions are the same
  have hexp : ∀ t ∈ tagsIn S, expansionsIn S t = expansionsIn S' t := by
    intro t ht
    have hS := mem_tagsIn.1 ht
    have ht' := h t
    rw [expansions?_ofRules, expansions?_ofRules, if_pos hS, if_pos ((hmem t).1 hS)] at ht'
    exact Option.some.inj ht'
  rw [ruleLines_ofRules, ruleLines_ofRules, ← htags]
  exact List.flatMap_congr fun t ht => by rw [hexp t ht]

/-! ### Every sequence of calls -/

/-- Whatever calls are made from the empty grammar, refused ones included, with `S` the rules of
the calls accepted: the tags of the grammar are those of `S`, each once, in strictly increasing
order of their UTF-8 bytes; each has as expansions the distinct right-hand sides of its rules in
`S`, in the order they were first added; the rule file is, tag after tag, one line
`tag->[rhs] : share` per expansion, the share that of the tag's expansion count; one line is
written per rule; and any grammar so built with the same expansions for every tag writes the same
file and counts the same rules. -/
theorem replay_writes_tags_in_byte_order (cs : List Call) :
    let g := replay {} cs
    let S := Call.rules (acceptedCalls {} cs)
    (tagsIn S).Pairwise (fun a b => a.toByteArray.toList < b.toByteArray.toList) ∧
    (∀ t, t ∈ tagsIn S ↔ (g.expansions? t).isSome) ∧
    (∀ t ∈ tagsIn S, g.expansions? t = some (expansionsIn S t)) ∧
    g.toRuleFile = String.join ((tagsIn S).flatMap fun t => (expansionsIn S t).map fun r =>
      t ++ "->[" ++ r.text ++ "] : " ++ (uniformShare (expansionsIn S t).length).toSixPlaces ++
        "\n") ∧
    g.ruleLines.length = g.ruleCount ∧
    ∀ cs', (∀ t, (replay {} cs').expansions? t = g.expansions? t) →
      (replay {} cs').toRuleFile = g.toRuleFile ∧ (replay {} cs').ruleCount = g.ruleCount := by
  intro g S
  have hg : g = ofRules S (Call.preterminalRules (acceptedCalls {} cs)) := replay_eq_ofRules cs
  refine ⟨(tagsIn_sorted S).imp fun h => (Text.lt_iff_bytes_lt _ _).1 h, fun t => ?_,
    fun t ht => ?_, by rw [hg, toRuleFile_ofRules]; rfl, length_ruleLines g, fun cs' h => ?_⟩
  · rw [hg, expansions?_ofRules, mem_tagsIn]
    split_ifs with ht <;> simp [ht]
  · rw [hg, expansions?_ofRules, if_pos (mem_tagsIn.1 ht)]
  · -- both grammars are grammars of rules, and those write the same lines
    have hlines : (replay {} cs').ruleLines = g.ruleLines := by
      rw [replay_eq_ofRules cs', hg]
      exact ruleLines_ofRules_eq (by rw [← replay_eq_ofRules cs', ← hg]; exact h)
    refine ⟨by rw [toRuleFile, toRuleFile, hlines], ?_⟩
    rw [← length_ruleLines, ← length_ruleLines, hlines]

example :
    let g := replay {} [.add ⟨"S", [.nonterminal "NP", .nonterminal "VP"]⟩,
      .add ⟨"NP", [.nonterminal "DT", .nonterminal "NN"]⟩, .add ⟨"NP", [.nonterminal "NN"]⟩,
      .addPreterminal ⟨"P_DOG", [.terminal "dog"]⟩]
    g.toRuleFile = "NP->[DT NN] : 5.000000e-01\nNP->[NN] : 5.000000e-01\n" ++
      "P_DOG->[_dog] : 1.000000e+00\nS->[NP VP] : 1.000000e+00\n" ∧ g.ruleCount = 4 := by
  decide

end Grammar

end Pcfg
