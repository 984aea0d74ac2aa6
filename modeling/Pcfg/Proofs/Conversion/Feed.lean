import Mathlib
import Pcfg.Proofs.Grammar.Frame
import Pcfg.Proofs.Conversion.Acceptance
import Pcfg.Proofs.Conversion.Invariant
/-!
# Feeding one line

A line that is not read is reported with the next line number and changes nothing. A line that
is read is the calls of its rules: its preterminal rules with `addPreterminal`, in order, and
then its own rule with `add`. They are made one after the other up to the first refusal
(`Grammar.runCalls`), which `Grammar.Runs` says without the function: every call of a list
succeeds in turn. A run stops at a refusal exactly when a prefix of the calls succeeds and the
next one is refused on the grammar the prefix left (`Grammar.runCalls_eq_some_iff`).

A refused line keeps what the calls before the refusal did, and its own rule, being last, is
never among them. Fed again at once, it is refused in the same way and changes nothing: a call
that succeeded, made again, succeeds with `false` and leaves the grammar as it is
(`Grammar.Call.Settled`), and it stays so through the later calls of the line
(`Grammar.Call.Settled.apply`), so the kept prefix is made again without effect and the refused
call meets the same grammar. This needs the entries in tag order, which every reachable grammar
has.

Main statement: `Conversion.feed_outcome`.
-/

namespace Pcfg

namespace Grammar

variable {g g' g₁ : Grammar} {c d : Call} {cs : List Call} {b : Bool} {k : Conflict}

/-! ### Runs of calls -/

/-- The calls succeed one after the other from `g` and end in `g'`. -/
inductive Runs : Grammar → List Call → Grammar → Prop where
  /-- No call. -/
  | nil (g : Grammar) : Runs g [] g
  /-- A call that succeeds, then the rest from where it left the grammar. -/
  | cons {g g₁ g' : Grammar} {c : Call} {cs : List Call} {b : Bool} :
      c.apply g = .ok (b, g₁) → Runs g₁ cs g' → Runs g (c :: cs) g'

theorem runs_nil_iff : Runs g [] g' ↔ g' = g := by
  constructor
  · rintro ⟨⟩
    rfl
  · rintro rfl
    exact .nil _

theorem runs_cons_iff : Runs g (c :: cs) g' ↔ ∃ b g₁, c.apply g = .ok (b, g₁) ∧ Runs g₁ cs g' := by
  constructor
  · rintro (_ | ⟨hc, hr⟩)
    exact ⟨_, _, hc, hr⟩
  · rintro ⟨b, g₁, hc, hr⟩
    exact .cons hc hr

/-- A run that meets no refusal is a run of all its calls. -/
theorem runCalls_eq_none_iff : g.runCalls cs = (g', none) ↔ Runs g cs g' := by
  induction cs generalizing g with
  | nil => simp [runCalls, runs_nil_iff, eq_comm]
  | cons c cs ih =>
      rcases hc : c.apply g with k | ⟨b, g₁⟩
      · simp [runCalls, hc, runs_cons_iff]
      · simp [runCalls, hc, runs_cons_iff, ih]

/-- Where a list of calls can stop with a refusal: at its first call, refused on `g`, or further
on, after the first call succeeds. -/
theorem refused_cons_iff :
    (∃ j d, (c :: cs)[j]? = some d ∧ Runs g ((c :: cs).take j) g' ∧ d.apply g' = .error k) ↔
      (g' = g ∧ c.apply g = .error k) ∨
      ∃ b g₁, c.apply g = .ok (b, g₁) ∧
        ∃ j d, cs[j]? = some d ∧ Runs g₁ (cs.take j) g' ∧ d.apply g' = .error k := by
  constructor
  · rintro ⟨_ | j, d, hd, hr, hk⟩
    · obtain rfl : g' = g := runs_nil_iff.1 hr
      obtain rfl : d = c := by simpa using hd.symm
      exact .inl ⟨rfl, hk⟩
    · obtain ⟨b, g₁, hc, hr⟩ := runs_cons_iff.1 hr
      exact .inr ⟨b, g₁, hc, j, d, by simpa using hd, hr, hk⟩
  · rintro (⟨rfl, hk⟩ | ⟨b, g₁, hc, j, d, hd, hr, hk⟩)
    · exact ⟨0, c, rfl, .nil _, hk⟩
    · exact ⟨j + 1, d, by simpa using hd, .cons hc hr, hk⟩

/-- A run stops at the first refusal: the calls before it all succeed and end in the grammar
returned, and the next call is refused on that grammar. -/
theorem runCalls_eq_some_iff :
    g.runCalls cs = (g', some k) ↔
      ∃ j d, cs[j]? = some d ∧ Runs g (cs.take j) g' ∧ d.apply g' = .error k := by
  induction cs generalizing g with
  | nil => simp [runCalls]
  | cons c cs ih =>
      rw [refused_cons_iff]
      rcases hc : c.apply g with k' | ⟨b, g₁⟩
      · simp [runCalls, hc, eq_comm]
      · simp [runCalls, hc, ih]

/-! ### Entries in tag order, again -/

/-- On entries in tag order, putting back the entry found for its tag changes nothing. -/
theorem putEntry_eq_self {e : Entry} {l : List Entry} (hs : (l.map (·.tag)).Pairwise (· < ·))
    (he : l.find? (·.tag = e.tag) = some e) : putEntry e l = l := by
  induction l with
  | nil => simp at he
  | cons f fs ih =>
      simp only [List.map_cons, List.pairwise_cons, List.mem_map] at hs
      by_cases hf : f.tag = e.tag
      · obtain rfl : f = e := by simpa [hf] using he
        simp [putEntry]
      · -- `e` lies further on, so its tag is greater than `f`'s
        have hmem : e ∈ fs := List.mem_of_find?_eq_some (by simpa [hf] using he)
        have hlt : f.tag < e.tag := hs.1 _ ⟨e, hmem, rfl⟩
        have hnlt : ¬ e.tag < f.tag := fun h => lt_asymm h hlt
        simp [putEntry, Ne.symm hf, hnlt, ih hs.2 (by simpa [hf] using he)]

theorem put_eq_self (hs : g.Sorted) {e : Entry} (he : g.find? e.tag = some e) : g.put e = g := by
  simp only [put]
  rw [putEntry_eq_self hs he]

theorem sorted_apply (hs : g.Sorted) (h : c.apply g = .ok (b, g')) : g'.Sorted := by
  cases c with
  | add p =>
      rcases add_eq_ok h with ⟨-, -, rfl⟩ | ⟨e, -, ⟨-, -, -, rfl⟩ | ⟨-, -, -, rfl⟩⟩
      · exact sorted_put hs _
      · exact hs
      · exact sorted_put hs _
  | addPreterminal p =>
      rcases addPreterminal_eq_ok h with ⟨-, -, rfl⟩ | ⟨e, -, -, -, rfl⟩
      · exact sorted_put hs _
      · exact sorted_put hs _

/-! ### Calls made again -/

theorem Entry.has_of_mem {e : Entry} {r : Rhs} (h : r ∈ e.expansions) : e.has r = true :=
  (Entry.has_iff e r).2 (List.mem_map_of_mem h)

/-- The call succeeds on the grammar with `false` and leaves it as it is. -/
def Call.Settled (c : Call) (g : Grammar) : Prop := c.apply g = .ok (false, g)

/-- `add` changes nothing when its expansion is there and, on a marked tag, the only one. -/
theorem Call.settled_add_iff {p : Production} :
    (Call.add p).Settled g ↔ ∃ e, g.find? p.lhs = some e ∧ e.has p.rhs = true ∧
      (e.preterminal = true → e.Admits p.rhs) := by
  constructor
  · intro h
    rcases add_eq_ok h with ⟨-, h, -⟩ | ⟨e, he, ⟨hh, hadm, -⟩ | ⟨-, -, h, -⟩⟩
    · cases h
    · exact ⟨e, he, hh, hadm⟩
    · cases h
  · rintro ⟨e, he, hh, hadm⟩
    have hc : ¬ (e.preterminal = true ∧ ¬ e.Admits p.rhs) := fun h => h.2 (hadm h.1)
    unfold Call.Settled Call.apply Grammar.add
    simp [he, hc, hh]

/-- On entries in tag order, `addPreterminal` changes nothing when its tag is marked and has
the requested right-hand side alone. -/
theorem Call.settled_addPreterminal_of {p : Production} (hs : g.Sorted) {e : Entry}
    (he : g.find? p.lhs = some e) (hp : e.preterminal = true) (ha : e.Admits p.rhs) :
    (Call.addPreterminal p).Settled g := by
  have hmark : { e with preterminal := true } = e := by cases e; simp_all
  have hself : g.put e = g := put_eq_self hs (by rw [(find?_eq_some he).2]; exact he)
  unfold Call.Settled Call.apply Grammar.addPreterminal
  simp [he, ha, hmark, hself]

/-- A settled `addPreterminal` has found its tag marked with the requested right-hand side. -/
theorem Call.Settled.addPreterminal_entry {p : Production}
    (h : (Call.addPreterminal p).Settled g) :
    ∃ e, g.find? p.lhs = some e ∧ e.preterminal = true ∧ e.Admits p.rhs := by
  rcases addPreterminal_eq_ok h with ⟨-, h, -⟩ | ⟨e, he, ha, -, hg⟩
  · cases h
  · -- the grammar is the one with the entry marked, so the entry was marked already
    have hfind : g.find? p.lhs = some { e with preterminal := true } := by
      rw [hg, ← (find?_eq_some he).2]
      exact find?_put_self g _
    rw [he] at hfind
    exact ⟨e, he, by simpa using congrArg Entry.preterminal (Option.some.inj hfind), ha⟩

/-- A call that succeeded, made again at once, changes nothing. -/
theorem Call.settled_of_apply (hs : g.Sorted) (h : c.apply g = .ok (b, g')) : c.Settled g' := by
  cases c with
  | add p =>
      rcases add_eq_ok h with ⟨-, -, rfl⟩ | ⟨e, he, ⟨hh, hadm, -, rfl⟩ | ⟨-, hp, -, rfl⟩⟩
      · exact Call.settled_add_iff.2 ⟨⟨p.lhs, false, [p.rhs]⟩, find?_put_self g _,
          Entry.has_of_mem (by simp), fun h => by simp at h⟩
      · exact Call.settled_add_iff.2 ⟨e, he, hh, hadm⟩
      · -- the expansion now ends the entry, which stays unmarked
        refine Call.settled_add_iff.2 ⟨{ e with expansions := e.expansions ++ [p.rhs] }, ?_,
          Entry.has_of_mem (by simp), fun h => by simp [hp] at h⟩
        rw [← (find?_eq_some he).2]
        exact find?_put_self g _
  | addPreterminal p =>
      have hs' := sorted_apply hs h
      rcases addPreterminal_eq_ok h with ⟨-, -, rfl⟩ | ⟨e, he, ha, -, rfl⟩
      · exact Call.settled_addPreterminal_of (e := ⟨p.lhs, true, [p.rhs]⟩) hs'
          (find?_put_self g _) rfl ⟨rfl, Entry.has_of_mem (by simp)⟩
      · refine Call.settled_addPreterminal_of (e := { e with preterminal := true }) hs' ?_ rfl ha
        rw [← (find?_eq_some he).2]
        exact find?_put_self g _

theorem Entry.has_of_prefix {e e' : Entry} {r : Rhs} (h : e.expansions <+: e'.expansions)
    (hr : e.has r = true) : e'.has r = true := by
  rw [Entry.has_iff] at hr ⊢
  exact (h.map Rhs.key).subset hr

/-- A successful `addPreterminal` on a tag that has an entry leaves its expansions as they are,
and that entry had the requested right-hand side alone. -/
theorem addPreterminal_of_find? {p : Production} {e : Entry} (he : g.find? p.lhs = some e)
    (h : g.addPreterminal p = .ok (b, g')) : b = false ∧ e.Admits p.rhs := by
  rcases addPreterminal_eq_ok h with ⟨hn, -, -⟩ | ⟨f, hf, ha, rfl, -⟩
  · simp [hn] at he
  · obtain rfl : f = e := Option.some.inj (hf.symm.trans he)
    exact ⟨rfl, ha⟩

/-- A call that changes nothing still changes nothing after another successful call. -/
theorem Call.Settled.apply (hs : g.Sorted) (hc : c.Settled g) (hd : d.apply g = .ok (b, g')) :
    c.Settled g' := by
  cases c with
  | add p =>
      obtain ⟨e, he, hh, hadm⟩ := Call.settled_add_iff.1 hc
      by_cases hp : e.preterminal = true
      · -- a marked entry is left as it was
        exact Call.settled_add_iff.2 ⟨e, find?_of_apply_of_preterminal hd he hp, hh, hadm⟩
      by_cases ht : d.rule.lhs = p.lhs
      · -- the entry keeps its expansions, and a new mark admits only one of them
        obtain ⟨e', -, hexp, hmark, hfind⟩ := find?_apply hd
        have he' : g'.find? p.lhs = some e' := by simp [hfind, ht]
        have hold : g.expansionsOf d.rule.lhs = e.expansions := by
          rw [ht, expansionsOf_of_find? he]
        have hprefix : e.expansions <+: e'.expansions := by
          rw [hexp, hold]
          split
          · exact List.prefix_append _ _
          · exact List.prefix_refl _
        refine Call.settled_add_iff.2 ⟨e', he', Entry.has_of_prefix hprefix hh, fun hp' => ?_⟩
        have hmarks : d.marks = true := by
          rw [hmark, ht, isPreterminal_of_find? he] at hp'
          simpa [hp] using hp'
        cases d with
        | add q => simp at hmarks
        | addPreterminal q =>
            simp only [Call.rule_addPreterminal] at ht
            obtain ⟨rfl, ha⟩ := addPreterminal_of_find? (ht ▸ he) hd
            have hsame : e'.expansions = e.expansions := by
              rw [hexp, if_neg Bool.false_ne_true, hold]
            exact ⟨hsame ▸ ha.1, Entry.has_of_prefix (hsame ▸ List.prefix_refl _) hh⟩
      · exact Call.settled_add_iff.2 ⟨e, by rw [find?_apply_of_ne hd (Ne.symm ht)]; exact he,
          hh, hadm⟩
  | addPreterminal p =>
      obtain ⟨e, he, hp, ha⟩ := hc.addPreterminal_entry
      exact Call.settled_addPreterminal_of (sorted_apply hs hd)
        (find?_of_apply_of_preterminal hd he hp) hp ha

theorem Call.Settled.runs (hs : g.Sorted) (hc : c.Settled g) (hr : Runs g cs g') :
    c.Settled g' := by
  induction hr with
  | nil => exact hc
  | cons hd _ ih => exact ih (sorted_apply hs hd) (hc.apply hs hd)

/-- After a run, each of its calls, made again, changes nothing. -/
theorem Runs.settled (hs : g.Sorted) (hr : Runs g cs g') : ∀ c ∈ cs, c.Settled g' := by
  induction hr with
  | nil => simp
  | cons hc hr ih =>
      intro c' hc'
      rcases List.mem_cons.1 hc' with rfl | hc'
      · exact (Call.settled_of_apply hs hc).runs (sorted_apply hs hc) hr
      · exact ih (sorted_apply hs hc) c' hc'

theorem runCalls_append_of_settled (hs : ∀ c ∈ cs, c.Settled g) (rest : List Call) :
    g.runCalls (cs ++ rest) = g.runCalls rest := by
  induction cs with
  | nil => rfl
  | cons c cs ih =>
      have hc : c.apply g = .ok (false, g) := hs c (by simp)
      simp only [List.cons_append, runCalls, hc]
      exact ih fun c' hc' => hs c' (by simp [hc'])

/-- A run refused on entries in tag order, made again from where it stopped, is refused by the
same call in the same way. -/
theorem runCalls_retry (hs : g.Sorted) (h : g.runCalls cs = (g', some k)) :
    g'.runCalls cs = (g', some k) := by
  obtain ⟨j, d, hd, hr, hk⟩ := runCalls_eq_some_iff.1 h
  obtain ⟨hj, rfl⟩ := List.getElem?_eq_some_iff.1 hd
  rw [← List.take_append_drop j cs, runCalls_append_of_settled (hr.settled hs),
    List.drop_eq_getElem_cons hj]
  simp [runCalls, hk]

end Grammar

namespace Conversion

variable {c c' : Conversion} {l : String} {e : Error}

/-- A refused line, fed again at once, is refused in the same way and changes nothing. -/
theorem feed_retry (hs : c.grammar.Sorted) (h : c.feed l = (c', some e)) :
    c'.feed l = (c', some e) := by
  rcases hl : Listing.Line.ofString? l with r | L
  · simp only [feed, hl, Prod.mk.injEq, Option.some.injEq] at h
    obtain ⟨rfl, rfl⟩ := h
    simp [feed, hl]
  · rw [feed_of_ofString? hl] at h ⊢
    rcases hrun : c.grammar.runCalls (Grammar.Call.ofLine L.homogenize) with ⟨g', _ | k⟩
    · simp [hrun] at h
    · simp only [hrun, Prod.mk.injEq, Option.some.injEq] at h
      obtain ⟨rfl, rfl⟩ := h
      simp [Grammar.runCalls_retry hs hrun]

/-- Of the calls of a line, the first `j` that are not its own rule are its first `j` preterminal
rules. -/
theorem take_ofLine_of_getElem? (r : LineRules) {j : Nat} {d : Grammar.Call}
    (hd : (Grammar.Call.ofLine r)[j]? = some d) :
    (Grammar.Call.ofLine r).take j = (r.preterminals.take j).map .addPreterminal := by
  have hj : j ≤ r.preterminals.length := by
    have := (List.getElem?_eq_some_iff.1 hd).1
    simp [Grammar.Call.ofLine] at this
    omega
  simp [Grammar.Call.ofLine, List.take_append, List.map_take, hj]

/-- Feeding a line to any state that lines can reach. A line that is not read is reported with
the next line number, and nothing changes. A line that is read is the calls of its preterminal
rules with `addPreterminal`, in order, and of its own rule with `add`, up to the first refusal:
the line is accepted, with the grammar they end in and one more line counted, exactly when they
all succeed; it is refused with the conflict of the first refused call, numbered as the next
line, exactly when its first `j` preterminal rules succeed, the call after them is refused on
the grammar they leave, and that grammar and the old count are kept, so the own rule of a refused
line is never added. A refused line fed again at once is refused in the same way and changes
nothing. -/
theorem feed_outcome (ls : List String) (l : String) :
    let c : Conversion := feedEach {} ls
    (∀ r, Listing.Line.ofString? l = .error r →
      c.feed l = (c, some (.malformedLine (c.lines + 1) l r))) ∧
    (∀ L, Listing.Line.ofString? l = .ok L →
      let cs := L.homogenize.preterminals.map .addPreterminal ++ [.add L.homogenize.main]
      (∀ g, c.feed l = (⟨g, c.lines + 1⟩, none) ↔ c.grammar.Runs cs g) ∧
      (∀ c' e, c.feed l = (c', some e) ↔
        ∃ j d k, cs[j]? = some d ∧
          c.grammar.Runs ((L.homogenize.preterminals.take j).map .addPreterminal) c'.grammar ∧
          d.apply c'.grammar = .error k ∧
          c'.lines = c.lines ∧ e = .preterminalConflict (c.lines + 1) k)) ∧
    (∀ c' e, c.feed l = (c', some e) → c'.feed l = (c', some e)) := by
  intro c
  have hs : c.grammar.Sorted :=
    (normalized_feedEach Grammar.normalized_empty ls).toWellFormed.sorted
  refine ⟨fun r hl => by simp [feed, hl], fun L hl => ⟨fun g => ?_, fun c' e => ?_⟩,
    fun c' e h => feed_retry hs h⟩
  · -- accepted: the calls all succeed
    rw [← Grammar.runCalls_eq_none_iff, feed_of_ofString? hl]
    show _ ↔ c.grammar.runCalls (Grammar.Call.ofLine L.homogenize) = _
    rcases c.grammar.runCalls (Grammar.Call.ofLine L.homogenize) with ⟨g', _ | k⟩ <;> simp
  · -- refused: a prefix of preterminal calls succeeds and the next call is refused
    rw [feed_of_ofString? hl]
    show _ ↔ ∃ j d k, (Grammar.Call.ofLine L.homogenize)[j]? = some d ∧ _
    constructor
    · intro h
      rcases hrun : c.grammar.runCalls (Grammar.Call.ofLine L.homogenize) with ⟨g', _ | k⟩
      · simp [hrun] at h
      · simp only [hrun, Prod.mk.injEq, Option.some.injEq] at h
        obtain ⟨rfl, rfl⟩ := h
        obtain ⟨j, d, hd, hr, hk⟩ := Grammar.runCalls_eq_some_iff.1 hrun
        exact ⟨j, d, k, hd, take_ofLine_of_getElem? _ hd ▸ hr, hk, rfl, rfl⟩
    · rintro ⟨j, d, k, hd, hr, hk, hlines, rfl⟩
      have hrun : c.grammar.runCalls (Grammar.Call.ofLine L.homogenize) = (c'.grammar, some k) :=
        Grammar.runCalls_eq_some_iff.2 ⟨j, d, hd, (take_ofLine_of_getElem? _ hd).symm ▸ hr, hk⟩
      rw [hrun]
      cases c'
      simp_all

end Conversion

end Pcfg
