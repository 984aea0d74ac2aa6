import Mathlib
import Pcfg.Proofs.Grammar.Update
import Pcfg.RuleFile.Write
/-!
# Well-formed grammars

Every grammar built from the empty one by `Grammar.add` and `Grammar.addPreterminal` has one
entry per tag in tag order, and each entry has at least one expansion, no two expansions with
the same keys, and exactly one expansion when its tag is marked (`Grammar.WellFormed`). The
empty grammar has this shape and every successful call keeps it (`wellFormed_apply`); a refused
call changes nothing, so the shape holds after any sequence of calls (`wellFormed_replay`).

Main statement: `replay_expansions_invariant`. Besides the shape it collects what follows from
it: the entry of a marked tag is the same after every later call, `add` never reports a new
expansion for a marked tag, there are at least as many rules as tags, and every line of the rule
file is written with the share `1 / n` of a tag of `n ≥ 1` expansions.
-/

namespace Pcfg

namespace Grammar

variable {g g' : Grammar} {p : Production} {b : Bool} {t : String}

/-! ### The shape of an entry -/

/-- The shape of every entry of a grammar built by calls. -/
structure Entry.WellFormed (e : Entry) : Prop where
  /-- The tag has an expansion. -/
  nonempty : e.expansions ≠ []
  /-- No two expansions have the same keys. -/
  distinct : e.keys.Nodup
  /-- A marked tag has exactly one expansion. -/
  single : e.preterminal = true → e.expansions.length = 1

/-- A new entry, with one expansion. -/
theorem Entry.wellFormed_new (t : String) (m : Bool) (r : Rhs) :
    (Entry.mk t m [r]).WellFormed :=
  ⟨by simp, by simp [Entry.keys], fun _ => rfl⟩

/-- Appending an expansion that is not there yet to an unmarked entry. -/
theorem Entry.WellFormed.append {e : Entry} {r : Rhs} (h : e.WellFormed)
    (hn : e.has r = false) (hp : e.preterminal = false) :
    { e with expansions := e.expansions ++ [r] }.WellFormed := by
  have hr : r.key ∉ e.keys := by simpa [← Entry.has_iff] using hn
  have hkeys : ({ e with expansions := e.expansions ++ [r] } : Entry).keys = e.keys ++ [r.key] := by
    simp [Entry.keys]
  refine ⟨by simp, ?_, by simp [hp]⟩
  rw [hkeys, List.nodup_append]
  exact ⟨h.distinct, List.nodup_singleton _, fun k hk k' hk' hkk => hr (by simp_all)⟩

/-- Marking an entry whose expansions are exactly the requested one. -/
theorem Entry.WellFormed.mark {e : Entry} {r : Rhs} (h : e.WellFormed) (ha : e.Admits r) :
    { e with preterminal := true }.WellFormed :=
  ⟨h.nonempty, h.distinct, fun _ => ha.1⟩

/-! ### The shape of a grammar -/

/-- What every grammar built by `add` and `addPreterminal` satisfies. -/
structure WellFormed (g : Grammar) : Prop where
  /-- One entry per tag, in tag order. -/
  sorted : g.Sorted
  /-- Every entry has the shape of `Entry.WellFormed`. -/
  entries : ∀ e ∈ g.entries, e.WellFormed

theorem wellFormed_empty : ({} : Grammar).WellFormed := ⟨sorted_empty, by simp⟩

theorem WellFormed.put (h : g.WellFormed) {e : Entry} (he : e.WellFormed) :
    (g.put e).WellFormed :=
  ⟨sorted_put h.sorted e, forall_mem_put he h.entries⟩

/-- Every successful call keeps the shape. -/
theorem wellFormed_apply {c : Call} (h : g.WellFormed) (hc : c.apply g = .ok (b, g')) :
    g'.WellFormed := by
  cases c with
  | add p =>
      rcases add_eq_ok hc with ⟨-, -, rfl⟩ | ⟨e, he, ⟨-, -, -, rfl⟩ | ⟨hh, hp, -, rfl⟩⟩
      · exact h.put (Entry.wellFormed_new _ _ _)
      · exact h
      · exact h.put ((h.entries e (find?_eq_some he).1).append hh hp)
  | addPreterminal p =>
      rcases addPreterminal_eq_ok hc with ⟨-, -, rfl⟩ | ⟨e, he, ha, -, rfl⟩
      · exact h.put (Entry.wellFormed_new _ _ _)
      · exact h.put ((h.entries e (find?_eq_some he).1).mark ha)

theorem wellFormed_replay (cs : List Call) : (replay {} cs).WellFormed :=
  replay_induction _ (fun _ _ _ _ _ h hc => wellFormed_apply h hc) wellFormed_empty

/-! ### What the shape gives -/

theorem WellFormed.expansions?_eq_some (h : g.WellFormed) {rs : List Rhs}
    (ht : g.expansions? t = some rs) :
    ∃ e ∈ g.entries, e.tag = t ∧ e.expansions = rs ∧ e.WellFormed := by
  obtain ⟨e, he, rfl⟩ : ∃ e, g.find? t = some e ∧ e.expansions = rs := by
    simpa [expansions?] using ht
  obtain ⟨hm, hte⟩ := find?_eq_some he
  exact ⟨e, hm, hte, rfl, h.entries e hm⟩

/-- A marked tag has exactly one expansion. -/
theorem WellFormed.single_of_isPreterminal (h : g.WellFormed)
    (ht : g.isPreterminal t = true) : ∃ r, g.expansions? t = some [r] := by
  obtain ⟨e, he, hp⟩ := isPreterminal_iff.1 ht
  have hlen := (h.entries e (find?_eq_some he).1).single hp
  obtain ⟨r, hr⟩ := List.length_eq_one_iff.1 hlen
  exact ⟨r, by simp [expansions?, he, hr]⟩

/-- `add` reports a new expansion only for an unmarked tag: a mark admits only the expansion
that is there already. -/
theorem add_not_new_of_isPreterminal (ht : g.isPreterminal p.lhs = true)
    (hc : g.add p = .ok (b, g')) : b = false := by
  obtain ⟨e, he, hp⟩ := isPreterminal_iff.1 ht
  rcases add_eq_ok hc with ⟨hn, -, -⟩ | ⟨f, hf, ⟨-, -, hb, -⟩ | ⟨-, hfp, -, -⟩⟩
  · simp [hn] at he
  · exact hb
  · obtain rfl : f = e := Option.some.inj (hf.symm.trans he)
    simp [hp] at hfp

theorem length_le_ruleCount {l : List Entry} (h : ∀ e ∈ l, e.expansions ≠ []) :
    l.length ≤ l.foldr (fun e n => e.expansions.length + n) 0 := by
  induction l with
  | nil => simp
  | cons e es ih =>
      have he : 0 < e.expansions.length := List.length_pos_of_ne_nil (h e (by simp))
      have hes := ih (fun x hx => h x (by simp [hx]))
      simp only [List.length_cons, List.foldr_cons]
      omega

/-- There are at least as many rules as tags. -/
theorem WellFormed.tagCount_le_ruleCount (h : g.WellFormed) : g.tagCount ≤ g.ruleCount :=
  length_le_ruleCount fun e he => (h.entries e he).nonempty

/-- Every line of the rule file is written with the share of a tag of at least one expansion. -/
theorem WellFormed.ruleLine_share (h : g.WellFormed) {line : String} (hl : line ∈ g.ruleLines) :
    ∃ e ∈ g.entries, ∃ r ∈ e.expansions, 1 ≤ e.expansions.length ∧
      line = ruleLine e.tag r (uniformShare e.expansions.length).toSixPlaces := by
  obtain ⟨e, he, hl⟩ := List.mem_flatMap.1 hl
  obtain ⟨r, hr, rfl⟩ := List.mem_map.1 hl
  exact ⟨e, he, r, hr, List.length_pos_of_ne_nil (h.entries e he).nonempty, rfl⟩

/-- The entry of a marked tag is the same after any later calls. -/
theorem find?_replay_of_preterminal {e : Entry} (he : g.find? t = some e)
    (hp : e.preterminal = true) (cs : List Call) : (g.replay cs).find? t = some e :=
  replay_induction (fun g => g.find? t = some e)
    (fun _ _ _ _ _ h hc => find?_of_apply_of_preterminal hc h hp) he

/-! ### Every sequence of calls -/

/-- Whatever calls are made from the empty grammar, refused ones included: every tag has at
least one expansion and no two with the same keys; a marked tag has exactly one expansion, and
keeps it and its mark through every later call; `add` never reports a new expansion for a
marked tag; there are at least as many rules as tags; and every line of the rule file carries
the share `1 / n` of its tag's `n ≥ 1` expansions. -/
theorem replay_expansions_invariant (cs : List Call) :
    let g := replay {} cs
    (∀ t rs, g.expansions? t = some rs → rs ≠ [] ∧ (rs.map Rhs.key).Nodup) ∧
    (∀ t, g.isPreterminal t = true → ∃ r, g.expansions? t = some [r]) ∧
    (∀ t r, g.isPreterminal t = true → g.expansions? t = some [r] → ∀ cs',
      (g.replay cs').isPreterminal t = true ∧ (g.replay cs').expansions? t = some [r]) ∧
    (∀ p b g', g.isPreterminal p.lhs = true → g.add p = .ok (b, g') → b = false) ∧
    g.tagCount ≤ g.ruleCount ∧
    (∀ line ∈ g.ruleLines, ∃ e ∈ g.entries, ∃ r ∈ e.expansions, 1 ≤ e.expansions.length ∧
      line = ruleLine e.tag r (uniformShare e.expansions.length).toSixPlaces) := by
  have h := wellFormed_replay cs
  refine ⟨?_, fun t ht => h.single_of_isPreterminal ht, ?_,
    fun p b g' ht hc => add_not_new_of_isPreterminal ht hc, h.tagCount_le_ruleCount,
    fun line hl => h.ruleLine_share hl⟩
  · intro t rs ht
    obtain ⟨e, -, -, rfl, he⟩ := h.expansions?_eq_some ht
    exact ⟨he.nonempty, he.distinct⟩
  · intro t r ht hr cs'
    obtain ⟨e, he, hp⟩ := isPreterminal_iff.1 ht
    have hlater := find?_replay_of_preterminal he hp cs'
    have hre : e.expansions = [r] := by simpa [expansions?, he] using hr
    exact ⟨isPreterminal_iff.2 ⟨e, hlater, hp⟩, by simp [expansions?, hlater, hre]⟩

end Grammar

end Pcfg
