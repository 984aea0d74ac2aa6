import Mathlib
import Pcfg.Proofs.Grammar.WellFormed
/-!
# The grammar of a list of rules

What a run of calls builds, said without the calls. For a list of rules `S` among which `P` are
preterminal rules, `Grammar.ofRules S P` has the tags of `S` in increasing order; each tag is
marked when a rule of `P` has it, and expands to the distinct right-hand sides of its rules in
`S`, two being the same when their keys are, in order of first occurrence with the first one kept
(`Grammar.expansionsIn`, by `List.eraseDupsBy`).

Main statement: `runCalls_empty_eq_ofRules`. Running calls on the empty grammar is accepted up
to the end exactly when every tag of a preterminal rule ends with a single expansion
(`Grammar.SingleExpansions`), and then builds `ofRules` of the rules of the calls.

The proof follows the calls one at a time with the invariant `Grammar.Holds g cs`: every lookup
in `g` answers the entry that the rules of `cs` give. One call is accepted exactly when the
condition still holds after it (`Holds.apply_ok`, `Holds.apply_error`), and since the condition
only gets harder as calls come (`Single.of_append`), acceptance of the whole run is the condition
on all of it. The list of entries is then pinned down by the order of the tags
(`Holds.eq_ofRules`).
-/

namespace Pcfg

namespace Grammar

/-! ### First occurrences -/

theorem eraseDupsBy_loop_append_singleton {α : Type} (r : α → α → Bool) (l bs : List α) (a : α) :
    List.eraseDupsBy.loop r (l ++ [a]) bs =
      if (List.eraseDupsBy.loop r l bs).any (r a) then List.eraseDupsBy.loop r l bs
      else List.eraseDupsBy.loop r l bs ++ [a] := by
  induction l generalizing bs with
  | nil =>
      simp only [List.nil_append, List.eraseDupsBy.loop, List.any_reverse]
      cases h : bs.any (r a) <;> simp
  | cons x xs ih =>
      rcases h : bs.any (r x) with _ | _ <;>
        simp only [List.cons_append, List.eraseDupsBy.loop, h] <;> exact ih _

/-- An element is kept at the end exactly when nothing kept before is related to it. -/
theorem eraseDupsBy_append_singleton {α : Type} (r : α → α → Bool) (l : List α) (a : α) :
    (l ++ [a]).eraseDupsBy r =
      if (l.eraseDupsBy r).any (r a) then l.eraseDupsBy r else l.eraseDupsBy r ++ [a] :=
  eraseDupsBy_loop_append_singleton r l [] a

theorem eraseDupsBy_subset {α : Type} (r : α → α → Bool) (l : List α) : l.eraseDupsBy r ⊆ l := by
  induction l using List.reverseRecOn with
  | nil => simp
  | append_singleton l a ih =>
      rw [eraseDupsBy_append_singleton]
      intro x hx
      split_ifs at hx
      · exact List.mem_append_left _ (ih hx)
      · rcases List.mem_append.1 hx with hx | hx
        · exact List.mem_append_left _ (ih hx)
        · exact List.mem_append_right _ hx

/-! ### The grammar of a list of rules -/

/-- The distinct right-hand sides of the rules of `t` in `S`, in order of first occurrence: two
right-hand sides are the same when their keys are, and the first one is kept. -/
def expansionsIn (S : List Production) (t : String) : List Rhs :=
  ((S.filter (·.lhs == t)).map (·.rhs)).eraseDupsBy Rhs.sameKey

/-- The tags of the rules `S`, each once, in increasing order. -/
def tagsIn (S : List Production) : List String :=
  (S.map (·.lhs)).dedup.mergeSort (fun a b => decide (a ≤ b))

/-- The entry of `t` for the rules `S`, among which `P` are the preterminal rules. -/
def entryIn (S P : List Production) (t : String) : Entry :=
  ⟨t, P.any (·.lhs == t), expansionsIn S t⟩

/-- The grammar of the rules `S`, among which `P` are the preterminal rules. -/
def ofRules (S P : List Production) : Grammar := ⟨(tagsIn S).map (entryIn S P)⟩

/-- Every tag of a preterminal rule has a single expansion. -/
def SingleExpansions (S P : List Production) : Prop :=
  ∀ p ∈ P, (expansionsIn S p.lhs).length = 1

theorem expansionsIn_append_singleton (S : List Production) (p : Production) (t : String) :
    expansionsIn (S ++ [p]) t =
      if p.lhs = t then
        if (expansionsIn S t).any (Rhs.sameKey p.rhs) then expansionsIn S t
        else expansionsIn S t ++ [p.rhs]
      else expansionsIn S t := by
  by_cases h : p.lhs = t
  · simp [expansionsIn, h, List.filter_append, eraseDupsBy_append_singleton]
  · simp [expansionsIn, h, List.filter_append]

theorem expansionsIn_eq_nil {S : List Production} {t : String} :
    expansionsIn S t = [] ↔ t ∉ S.map (·.lhs) := by
  have hnil : ∀ l : List Rhs, l.eraseDupsBy Rhs.sameKey = [] ↔ l = [] := by
    intro l
    cases l with
    | nil => simp
    | cons a l => simp [List.eraseDupsBy_cons]
  simp [expansionsIn, hnil, List.filter_eq_nil_iff]

/-- Every expansion of a tag is the right-hand side of one of its rules. -/
theorem exists_rule_of_mem_expansionsIn {S : List Production} {t : String} {r : Rhs}
    (hr : r ∈ expansionsIn S t) : ∃ p ∈ S, p.lhs = t ∧ p.rhs = r := by
  obtain ⟨p, hp, rfl⟩ := List.mem_map.1 (eraseDupsBy_subset _ _ hr)
  obtain ⟨hpS, hpt⟩ := List.mem_filter.1 hp
  exact ⟨p, hpS, by simpa using hpt, rfl⟩

/-- Later rules never take an expansion away. -/
theorem length_expansionsIn_le_append (S S' : List Production) (t : String) :
    (expansionsIn S t).length ≤ (expansionsIn (S ++ S') t).length := by
  induction S' generalizing S with
  | nil => simp
  | cons p S' ih =>
      have hp : (expansionsIn S t).length ≤ (expansionsIn (S ++ [p]) t).length := by
        rw [expansionsIn_append_singleton]
        split_ifs <;> simp
      simpa using hp.trans (ih (S ++ [p]))

/-! ### The rules of calls -/

/-- The rules that the calls add. -/
def Call.rules (cs : List Call) : List Production := cs.map Call.rule

/-- The rules of the calls that mark their tags. -/
def Call.preterminalRules (cs : List Call) : List Production :=
  (cs.filter Call.marks).map Call.rule

/-- The entry of `t` for the rules of the calls. -/
def entryOf (cs : List Call) (t : String) : Entry :=
  entryIn (Call.rules cs) (Call.preterminalRules cs) t

/-- The tags of preterminal rules of the calls have a single expansion. -/
def Single (cs : List Call) : Prop := SingleExpansions (Call.rules cs) (Call.preterminalRules cs)

@[simp] theorem Call.rules_append (cs ds : List Call) :
    Call.rules (cs ++ ds) = Call.rules cs ++ Call.rules ds := List.map_append

@[simp] theorem Call.preterminalRules_append (cs ds : List Call) :
    Call.preterminalRules (cs ++ ds) = Call.preterminalRules cs ++ Call.preterminalRules ds := by
  simp [Call.preterminalRules]

@[simp] theorem Call.rules_singleton (c : Call) : Call.rules [c] = [c.rule] := rfl

theorem Call.preterminalRules_singleton (c : Call) :
    Call.preterminalRules [c] = if c.marks then [c.rule] else [] := by
  cases h : c.marks <;> simp [Call.preterminalRules, h]

theorem Call.lhs_mem_rules_of_mem_preterminalRules {cs : List Call} {p : Production}
    (h : p ∈ Call.preterminalRules cs) : p.lhs ∈ (Call.rules cs).map (·.lhs) := by
  obtain ⟨c, hc, rfl⟩ := List.mem_map.1 h
  exact List.mem_map.2 ⟨c.rule, List.mem_map.2 ⟨c, (List.mem_filter.1 hc).1, rfl⟩, rfl⟩

@[simp] theorem entryOf_tag (cs : List Call) (t : String) : (entryOf cs t).tag = t := rfl

/-- A tag that no call has: no mark and no expansion. -/
theorem entryOf_of_not_mem {cs : List Call} {t : String}
    (h : t ∉ (Call.rules cs).map (·.lhs)) : entryOf cs t = ⟨t, false, []⟩ := by
  have hmark : (Call.preterminalRules cs).any (·.lhs == t) = false := by
    rw [List.any_eq_false]
    intro p hp hpt
    exact h (by simpa [← beq_iff_eq.1 hpt] using Call.lhs_mem_rules_of_mem_preterminalRules hp)
  simp [entryOf, entryIn, hmark, expansionsIn_eq_nil.2 h]

/-- A later call of another tag leaves the entry of `t` as it was. -/
theorem entryOf_append_of_ne (cs : List Call) {c : Call} {t : String} (h : c.rule.lhs ≠ t) :
    entryOf (cs ++ [c]) t = entryOf cs t := by
  have hany : (Call.preterminalRules [c]).any (·.lhs == t) = false := by
    rw [Call.preterminalRules_singleton]
    split <;> simp [h]
  simp [entryOf, entryIn, expansionsIn_append_singleton, h, List.any_append, hany]

/-- A later call of its tag marks it when it is a preterminal rule, and adds its right-hand
side unless one with the same keys is there. -/
theorem entryOf_append_self (cs : List Call) (c : Call) :
    entryOf (cs ++ [c]) c.rule.lhs =
      ⟨c.rule.lhs, (entryOf cs c.rule.lhs).preterminal || c.marks,
        if (entryOf cs c.rule.lhs).has c.rule.rhs then (entryOf cs c.rule.lhs).expansions
        else (entryOf cs c.rule.lhs).expansions ++ [c.rule.rhs]⟩ := by
  have hany : (Call.preterminalRules [c]).any (·.lhs == c.rule.lhs) = c.marks := by
    rw [Call.preterminalRules_singleton]
    cases c.marks <;> simp
  simp [entryOf, entryIn, expansionsIn_append_singleton, List.any_append, hany, Entry.has]

theorem single_nil : Single [] := by
  simp [Single, SingleExpansions, Call.preterminalRules]

theorem Single.length_of_preterminal {cs : List Call} (hs : Single cs) {t : String}
    (ht : (entryOf cs t).preterminal = true) : (entryOf cs t).expansions.length = 1 := by
  obtain ⟨p, hp, hpt⟩ := List.any_eq_true.1 ht
  have := hs p hp
  rwa [beq_iff_eq.1 hpt] at this

/-- The condition only gets harder as calls come. -/
theorem Single.of_append {cs ds : List Call} (hs : Single (cs ++ ds)) : Single cs := by
  intro p hp
  have hle := length_expansionsIn_le_append (Call.rules cs) (Call.rules ds) p.lhs
  have hone := hs p (by simp [hp])
  have hne : expansionsIn (Call.rules cs) p.lhs ≠ [] :=
    fun h => expansionsIn_eq_nil.1 h (Call.lhs_mem_rules_of_mem_preterminalRules hp)
  have hpos := List.length_pos_of_ne_nil hne
  simp only [Call.rules_append] at hone
  omega

/-- After one more call, the condition is the condition on its tag alone. -/
theorem single_append_iff {cs : List Call} (hs : Single cs) (c : Call) :
    Single (cs ++ [c]) ↔ ((entryOf (cs ++ [c]) c.rule.lhs).preterminal = true →
      (entryOf (cs ++ [c]) c.rule.lhs).expansions.length = 1) := by
  constructor
  · intro h ht
    exact h.length_of_preterminal ht
  · intro h p hp
    by_cases hpt : p.lhs = c.rule.lhs
    · -- a preterminal rule of the call's tag marks it
      have hmark : (entryOf (cs ++ [c]) c.rule.lhs).preterminal = true :=
        List.any_eq_true.2 ⟨p, hp, by simp [hpt]⟩
      have := h hmark
      rwa [hpt]
    · -- any other tag keeps its entry
      have hold : p ∈ Call.preterminalRules cs := by
        rw [Call.preterminalRules_append, Call.preterminalRules_singleton] at hp
        rcases List.mem_append.1 hp with hp | hp
        · exact hp
        · split at hp <;> simp_all
      have hsame : expansionsIn (Call.rules (cs ++ [c])) p.lhs =
          expansionsIn (Call.rules cs) p.lhs :=
        congrArg Entry.expansions (entryOf_append_of_ne cs (Ne.symm hpt))
      show (expansionsIn (Call.rules (cs ++ [c])) p.lhs).length = 1
      rw [hsame]
      exact hs p hold

/-! ### Grammars that hold the rules of calls -/

variable {g g' : Grammar} {cs : List Call} {t : String} {b : Bool}

/-- The grammar holds exactly the rules of the calls: every tag is looked up as its entry in
them. -/
def Holds (g : Grammar) (cs : List Call) : Prop :=
  ∀ t, g.find? t = if t ∈ (Call.rules cs).map (·.lhs) then some (entryOf cs t) else none

theorem holds_empty : ({} : Grammar).Holds [] := by
  intro t
  simp [Call.rules]

theorem Holds.find?_eq_entryOf (h : g.Holds cs) (ht : t ∈ (Call.rules cs).map (·.lhs)) :
    g.find? t = some (entryOf cs t) := by
  rw [h t, if_pos ht]

theorem Holds.not_mem_of_find?_none (h : g.Holds cs) (hn : g.find? t = none) :
    t ∉ (Call.rules cs).map (·.lhs) := by
  intro ht
  rw [h.find?_eq_entryOf ht] at hn
  cases hn

theorem Holds.of_find?_some (h : g.Holds cs) {e : Entry} (he : g.find? t = some e) :
    t ∈ (Call.rules cs).map (·.lhs) ∧ e = entryOf cs t := by
  rw [h t] at he
  split_ifs at he with ht
  · exact ⟨ht, (Option.some.inj he).symm⟩

/-- Putting the entry that the calls give to the tag of one more call. -/
theorem Holds.put (h : g.Holds cs) (c : Call) :
    (g.put (entryOf (cs ++ [c]) c.rule.lhs)).Holds (cs ++ [c]) := by
  intro t
  rw [find?_put, entryOf_tag]
  by_cases ht : c.rule.lhs = t
  · subst ht
    simp
  · rw [if_neg ht, h t, entryOf_append_of_ne cs ht]
    simp [Ne.symm ht]

/-- One more call that leaves the entry of its tag as it was. -/
theorem Holds.of_entryOf_eq (h : g.Holds cs) (c : Call)
    (hin : c.rule.lhs ∈ (Call.rules cs).map (·.lhs))
    (he : entryOf (cs ++ [c]) c.rule.lhs = entryOf cs c.rule.lhs) : g.Holds (cs ++ [c]) := by
  intro t
  by_cases ht : c.rule.lhs = t
  · subst ht
    rw [h.find?_eq_entryOf hin, if_pos (by simp [hin]), he]
  · rw [h t, entryOf_append_of_ne cs ht]
    simp [Ne.symm ht]

/-- A call that is accepted keeps the condition and the invariant. -/
theorem Holds.apply_ok (h : g.Holds cs) (hs : Single cs) {c : Call}
    (hc : c.apply g = .ok (b, g')) : Single (cs ++ [c]) ∧ g'.Holds (cs ++ [c]) := by
  cases c with
  | add p =>
      have hself := entryOf_append_self cs (.add p)
      simp only [Call.rule_add, Call.marks_add, Bool.or_false] at hself
      rcases add_eq_ok hc with ⟨hn, -, rfl⟩ | ⟨e, he, ⟨hh, -, -, rfl⟩ | ⟨hh, hp, -, rfl⟩⟩
      · -- a new tag, unmarked, with the one expansion
        have hnew : entryOf (cs ++ [.add p]) p.lhs = ⟨p.lhs, false, [p.rhs]⟩ := by
          rw [hself]
          simp [entryOf_of_not_mem (h.not_mem_of_find?_none hn), Entry.has]
        refine ⟨(single_append_iff hs _).2 (by simp [Call.rule, hnew]), ?_⟩
        have hput := h.put (.add p)
        rwa [Call.rule, hnew] at hput
      · -- the expansion is there already
        obtain ⟨hin, rfl⟩ := h.of_find?_some he
        have hsame : entryOf (cs ++ [.add p]) p.lhs = entryOf cs p.lhs := by
          rw [hself]
          simp only [hh, ↓reduceIte]
          rfl
        refine ⟨(single_append_iff hs _).2 ?_, h.of_entryOf_eq (.add p) hin hsame⟩
        simp only [Call.rule, hsame]
        exact hs.length_of_preterminal
      · -- the expansion is appended to an unmarked tag
        obtain ⟨-, rfl⟩ := h.of_find?_some he
        have hnew : entryOf (cs ++ [.add p]) p.lhs =
            { entryOf cs p.lhs with expansions := (entryOf cs p.lhs).expansions ++ [p.rhs] } := by
          rw [hself]
          simp [hh, hp]
        refine ⟨(single_append_iff hs _).2 (by simp [Call.rule, hnew, hp]), ?_⟩
        have hput := h.put (.add p)
        rwa [Call.rule, hnew] at hput
  | addPreterminal p =>
      have hself := entryOf_append_self cs (.addPreterminal p)
      simp only [Call.rule_addPreterminal, Call.marks_addPreterminal, Bool.or_true] at hself
      rcases addPreterminal_eq_ok hc with ⟨hn, -, rfl⟩ | ⟨e, he, ha, -, rfl⟩
      · -- a new tag, marked, with the one expansion
        have hnew : entryOf (cs ++ [.addPreterminal p]) p.lhs = ⟨p.lhs, true, [p.rhs]⟩ := by
          rw [hself]
          simp [entryOf_of_not_mem (h.not_mem_of_find?_none hn), Entry.has]
        refine ⟨(single_append_iff hs _).2 (by simp [Call.rule, hnew]), ?_⟩
        have hput := h.put (.addPreterminal p)
        rwa [Call.rule, hnew] at hput
      · -- an existing tag with exactly this expansion is marked
        obtain ⟨-, rfl⟩ := h.of_find?_some he
        have hnew : entryOf (cs ++ [.addPreterminal p]) p.lhs =
            { entryOf cs p.lhs with preterminal := true } := by
          rw [hself]
          simp [ha.2]
        refine ⟨(single_append_iff hs _).2 (fun _ => by simpa [Call.rule, hnew] using ha.1), ?_⟩
        have hput := h.put (.addPreterminal p)
        rwa [Call.rule, hnew] at hput

/-- A call that is refused breaks the condition for good. -/
theorem Holds.apply_error (h : g.Holds cs) (hs : Single cs) {c : Call} {k : Conflict}
    (hc : c.apply g = .error k) : ¬ Single (cs ++ [c]) := by
  rw [single_append_iff hs, entryOf_append_self]
  cases c with
  | add p =>
      obtain ⟨e, he, hp, hadm, -⟩ := add_eq_error hc
      obtain ⟨-, rfl⟩ := h.of_find?_some he
      -- the tag is marked with one expansion, which is not the requested one
      have hone := hs.length_of_preterminal hp
      have hh : (entryOf cs p.lhs).has p.rhs = false := by
        cases hh : (entryOf cs p.lhs).has p.rhs
        · rfl
        · exact absurd ⟨hone, hh⟩ hadm
      simp [Call.rule, Call.marks, hp, hh, hone]
  | addPreterminal p =>
      obtain ⟨e, he, hadm, -⟩ := addPreterminal_eq_error hc
      obtain ⟨hin, rfl⟩ := h.of_find?_some he
      have hpos : 0 < (entryOf cs p.lhs).expansions.length :=
        List.length_pos_of_ne_nil fun h0 => expansionsIn_eq_nil.1 h0 hin
      intro hsingle
      have hlen := hsingle (by simp [Call.marks])
      cases hh : (entryOf cs p.lhs).has p.rhs
      · -- a second expansion would be added
        simp only [Call.rule_addPreterminal, hh, Bool.false_eq_true, ↓reduceIte,
          List.length_append, List.length_singleton] at hlen
        omega
      · -- the requested expansion is there, so there must be another one
        simp only [Call.rule, hh, if_true] at hlen
        exact hadm ⟨hlen, hh⟩

/-- Running calls keeps the invariant, and gets through all of them exactly when the condition
holds of all the calls so far. -/
theorem Holds.run (h : g.Holds cs) (hs : Single cs) (ds : List Call) :
    ((g.runCalls ds).2 = none ↔ Single (cs ++ ds)) ∧
      ((g.runCalls ds).2 = none → (g.runCalls ds).1.Holds (cs ++ ds)) := by
  induction ds generalizing g cs with
  | nil => simpa [Grammar.runCalls] using And.intro hs h
  | cons d ds ih =>
      simp only [Grammar.runCalls]
      rcases hd : d.apply g with k | ⟨b, g₁⟩
      · -- refused here, and no longer list of calls can meet the condition again
        have hnot := h.apply_error hs hd
        refine ⟨⟨by simp, fun hall => ?_⟩, by simp⟩
        have hlonger : Single (cs ++ [d] ++ ds) := by simpa using hall
        exact (hnot (Single.of_append hlonger)).elim
      · obtain ⟨hs₁, h₁⟩ := h.apply_ok hs hd
        simpa using ih h₁ hs₁

/-! ### The list of entries -/

theorem mem_tagsIn {S : List Production} : t ∈ tagsIn S ↔ t ∈ S.map (·.lhs) := by
  simp [tagsIn, List.mem_mergeSort]

theorem tagsIn_sorted (S : List Production) : (tagsIn S).Pairwise (· < ·) := by
  have hle : (tagsIn S).Pairwise (fun a b => decide (a ≤ b) = true) :=
    List.pairwise_mergeSort
      (fun a b c hab hbc => by simp only [decide_eq_true_eq] at *; exact le_trans hab hbc)
      (fun a b => by simpa using le_total a b) _
  have hnd : (tagsIn S).Nodup :=
    (List.mergeSort_perm _ _).nodup_iff.2 (List.nodup_dedup _)
  exact (hle.and hnd).imp fun h => lt_of_le_of_ne (by simpa using h.1) h.2

/-- Two strictly increasing lists of tags with the same members are the same list. -/
theorem eq_of_pairwise_lt_of_mem_iff {l l' : List String} (h : l.Pairwise (· < ·))
    (h' : l'.Pairwise (· < ·)) (hmem : ∀ t, t ∈ l ↔ t ∈ l') : l = l' :=
  ((List.perm_ext_iff_of_nodup (h.imp ne_of_lt) (h'.imp ne_of_lt)).2 hmem).eq_of_pairwise
    (fun _ _ _ _ hab hba => absurd hba (lt_asymm hab)) h h'

/-- A grammar in tag order that holds the rules of the calls is the grammar of their rules. -/
theorem Holds.eq_ofRules (hsort : g.Sorted) (h : g.Holds cs) :
    g = ofRules (Call.rules cs) (Call.preterminalRules cs) := by
  -- each entry is the entry that the calls give to its tag
  have hentry : ∀ e ∈ g.entries, e = entryOf cs e.tag := by
    intro e he
    exact (h.of_find?_some (find?_of_mem hsort he)).2
  -- the tags are the tags of the rules, and both lists are strictly increasing
  have hmem : ∀ t, t ∈ g.entries.map (·.tag) ↔ t ∈ tagsIn (Call.rules cs) := by
    intro t
    rw [mem_tagsIn]
    constructor
    · intro ht
      obtain ⟨e, he, rfl⟩ := List.mem_map.1 ht
      exact (h.of_find?_some (find?_of_mem hsort he)).1
    · intro ht
      exact List.mem_map.2 ⟨_, (find?_eq_some (h.find?_eq_entryOf ht)).1, rfl⟩
  have htags : g.entries.map (·.tag) = tagsIn (Call.rules cs) :=
    eq_of_pairwise_lt_of_mem_iff hsort (tagsIn_sorted _) hmem
  obtain ⟨entries⟩ := g
  simp only [ofRules, Grammar.mk.injEq]
  rw [← htags, List.map_map]
  conv_lhs => rw [← List.map_id entries]
  exact List.map_congr_left hentry

/-! ### The grammar of rules, seen from outside -/

theorem tags_ofRules (S P : List Production) : (ofRules S P).entries.map (·.tag) = tagsIn S := by
  simp [ofRules, entryIn, Function.comp_def]

theorem sorted_ofRules (S P : List Production) : (ofRules S P).Sorted := by
  rw [Sorted, tags_ofRules]
  exact tagsIn_sorted S

theorem mem_entries_ofRules {S P : List Production} {e : Entry} :
    e ∈ (ofRules S P).entries ↔ ∃ t ∈ S.map (·.lhs), e = entryIn S P t := by
  simp only [ofRules, List.mem_map, mem_tagsIn]
  constructor <;> rintro ⟨t, ht, rfl⟩ <;> exact ⟨t, ht, rfl⟩

theorem find?_ofRules (S P : List Production) (t : String) :
    (ofRules S P).find? t = if t ∈ S.map (·.lhs) then some (entryIn S P t) else none := by
  simp only [find?, ofRules, List.find?_map]
  -- the entry of a tag carries that tag, so the search is for the tag itself
  have hp : ((fun e : Entry => decide (e.tag = t)) ∘ entryIn S P) = (fun t' => decide (t' = t)) := rfl
  rw [hp]
  split_ifs with ht
  · -- the one tag equal to `t` is found
    have hsome : ((tagsIn S).find? (fun t' => decide (t' = t))).isSome := by
      rw [List.find?_isSome]
      exact ⟨t, mem_tagsIn.2 ht, by simp⟩
    obtain ⟨t', ht'⟩ := Option.isSome_iff_exists.1 hsome
    have heq : t' = t := by simpa using List.find?_some ht'
    simp [ht', heq]
  · have hnone : (tagsIn S).find? (fun t' => decide (t' = t)) = none := by
      rw [List.find?_eq_none]
      intro t' ht' heq
      obtain rfl : t' = t := by simpa using heq
      exact ht (mem_tagsIn.1 ht')
    simp [hnone]

theorem expansions?_ofRules (S P : List Production) (t : String) :
    (ofRules S P).expansions? t = if t ∈ S.map (·.lhs) then some (expansionsIn S t) else none := by
  rw [expansions?, find?_ofRules]
  split_ifs <;> rfl

theorem isPreterminal_ofRules (S P : List Production) (t : String) :
    (ofRules S P).isPreterminal t = (decide (t ∈ S.map (·.lhs)) && P.any (·.lhs == t)) := by
  rw [isPreterminal, find?_ofRules]
  split_ifs with ht <;> simp [ht, entryIn]

/-- When the preterminal rules are among the rules, the marked tags are those of the
preterminal rules. -/
theorem isPreterminal_ofRules_iff {S P : List Production} (hP : ∀ p ∈ P, p ∈ S) (t : String) :
    (ofRules S P).isPreterminal t = true ↔ t ∈ P.map (·.lhs) := by
  rw [isPreterminal_ofRules]
  simp only [Bool.and_eq_true, decide_eq_true_eq, List.any_eq_true, beq_iff_eq, List.mem_map]
  constructor
  · rintro ⟨-, hp⟩
    exact hp
  · rintro ⟨p, hp, rfl⟩
    exact ⟨⟨p, hP p hp, rfl⟩, p, hp, rfl⟩

/-- The rule file of the grammar of rules: for each tag in increasing order, one line per
distinct expansion with the share `1 / n` of its `n` expansions. -/
theorem toRuleFile_ofRules (S P : List Production) :
    (ofRules S P).toRuleFile = String.join ((tagsIn S).flatMap fun t =>
      (expansionsIn S t).map fun r => ruleLine t r (uniformShare (expansionsIn S t).length).toSixPlaces) := by
  simp only [toRuleFile, ruleLines, ofRules, List.flatMap_map]
  rfl

/-! ### Every run from the empty grammar -/

/-- Running calls on the empty grammar gets through all of them exactly when every tag of a
preterminal rule among them has a single expansion, and then builds the grammar of their rules:
the tags in increasing order, marked when a preterminal rule has them, each with its distinct
expansions in order of first occurrence. -/
theorem runCalls_empty_eq_ofRules (cs : List Call) :
    (((runCalls {} cs).2 = none) ↔
      SingleExpansions (Call.rules cs) (Call.preterminalRules cs)) ∧
    ((runCalls {} cs).2 = none →
      (runCalls {} cs).1 = ofRules (Call.rules cs) (Call.preterminalRules cs)) := by
  have hrun := holds_empty.run single_nil cs
  simp only [List.nil_append] at hrun
  have hwf : (runCalls {} cs).1.WellFormed :=
    runCalls_induction _ (fun _ _ _ _ _ h hc => wellFormed_apply h hc) wellFormed_empty
  exact ⟨hrun.1, fun hn => (hrun.2 hn).eq_ofRules hwf.sorted⟩

end Grammar

end Pcfg
