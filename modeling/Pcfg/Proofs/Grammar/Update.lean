import Mathlib
import Pcfg.Grammar.Basic
/-!
# How a grammar changes

`Grammar.put` replaces the entry of a tag, or inserts it before the first greater tag. Whatever
the entries are, a lookup afterwards sees the new entry for its tag and the old answer for every
other tag (`find?_put`); on entries in tag order, the order is kept (`sorted_put`).

On top of it, `add_eq_ok` and `addPreterminal_eq_ok` list everything a successful call can do,
and `add_eq_error` and `addPreterminal_eq_error` say when a call is refused. The proofs after
this module use these four and never unfold the calls.

A call is also data (`Grammar.Call`), so that a sequence of calls can be stated:
`Grammar.replay` makes every call whatever the ones before returned, and `Grammar.runCalls`
stops at the first refusal, as the rules of one listing line are added (`addLine_eq_runCalls`).
A property that every successful call keeps holds after both (`replay_induction`,
`runCalls_induction`). Two facts need no invariant at all: a successful call never clears a mark
(`isPreterminal_of_apply`), and it never changes the entry of a marked tag
(`find?_of_apply_of_preterminal`).
-/

namespace Pcfg

namespace Grammar

variable {g g' : Grammar} {p : Production} {b : Bool} {t : String}

/-! ### Entries in tag order -/

/-- The tags strictly increase along the entries, so no tag has two entries. -/
def Sorted (g : Grammar) : Prop := (g.entries.map (·.tag)).Pairwise (· < ·)

theorem sorted_empty : ({} : Grammar).Sorted := List.Pairwise.nil

@[simp] theorem entries_empty : ({} : Grammar).entries = [] := rfl

@[simp] theorem find?_empty (t : String) : ({} : Grammar).find? t = none := rfl

theorem mem_putEntry {e x : Entry} {l : List Entry} (h : x ∈ putEntry e l) : x = e ∨ x ∈ l := by
  induction l with
  | nil => simpa [putEntry] using h
  | cons f fs ih =>
      simp only [putEntry] at h
      split_ifs at h <;> grind

theorem mem_put {e x : Entry} (h : x ∈ (g.put e).entries) : x = e ∨ x ∈ g.entries :=
  mem_putEntry h

/-- What the new entry and all the old ones have, every entry after `put` has. -/
theorem forall_mem_put {Q : Entry → Prop} {e : Entry} (he : Q e) (hg : ∀ x ∈ g.entries, Q x) :
    ∀ x ∈ (g.put e).entries, Q x := by
  intro x hx
  rcases mem_put hx with rfl | hx
  · exact he
  · exact hg x hx

theorem find?_putEntry (e : Entry) (l : List Entry) (t : String) :
    (putEntry e l).find? (·.tag = t) = if e.tag = t then some e else l.find? (·.tag = t) := by
  induction l with
  | nil => by_cases h : e.tag = t <;> simp [putEntry, h]
  | cons f fs ih =>
      by_cases het : e.tag = t
      · -- no entry before the new one has its tag
        subst het
        simp only [putEntry, if_true]
        split_ifs with h₁ h₂
        · simp
        · simp
        · simp [Ne.symm h₁, ih]
      · simp only [putEntry, het, if_false] at ih ⊢
        split_ifs with h₁ h₂ <;> simp_all [List.find?_cons]

/-- The lookup after `put` sees the new entry for its tag and nothing else changed. -/
theorem find?_put (g : Grammar) (e : Entry) (t : String) :
    (g.put e).find? t = if e.tag = t then some e else g.find? t :=
  find?_putEntry e g.entries t

theorem find?_put_self (g : Grammar) (e : Entry) : (g.put e).find? e.tag = some e := by
  simp [find?_put]

theorem find?_put_of_ne (g : Grammar) (e : Entry) (h : e.tag ≠ t) :
    (g.put e).find? t = g.find? t := by
  simp [find?_put, h]

theorem isPreterminal_iff :
    g.isPreterminal t = true ↔ ∃ e, g.find? t = some e ∧ e.preterminal = true := by
  unfold isPreterminal
  cases g.find? t <;> simp

/-- The entry found for a tag is an entry of that tag. -/
theorem find?_eq_some {e : Entry} (h : g.find? t = some e) : e ∈ g.entries ∧ e.tag = t := by
  have hm := List.mem_of_find?_eq_some h
  have ht := List.find?_some h
  exact ⟨hm, by simpa using ht⟩

theorem sorted_putEntry (e : Entry) {l : List Entry} (h : (l.map (·.tag)).Pairwise (· < ·)) :
    ((putEntry e l).map (·.tag)).Pairwise (· < ·) := by
  induction l with
  | nil => simp [putEntry]
  | cons f fs ih =>
      simp only [List.map_cons, List.pairwise_cons, List.mem_map] at h
      obtain ⟨hf, hfs⟩ := h
      simp only [putEntry]
      split_ifs with h₁ h₂
      · -- the entry of `f`'s tag is replaced
        simpa [h₁] using And.intro hf hfs
      · -- the new entry goes first
        simp only [List.map_cons, List.pairwise_cons, List.mem_cons, List.mem_map]
        refine ⟨?_, hf, hfs⟩
        rintro _ (rfl | ⟨x, hx, rfl⟩)
        · exact h₂
        · exact lt_trans h₂ (hf _ ⟨x, hx, rfl⟩)
      · -- `f` comes first, the new entry goes further in
        have hlt : f.tag < e.tag := by grind
        simp only [List.map_cons, List.pairwise_cons, List.mem_map]
        refine ⟨?_, ih hfs⟩
        rintro _ ⟨x, hx, rfl⟩
        rcases mem_putEntry hx with rfl | hx
        · exact hlt
        · exact hf _ ⟨x, hx, rfl⟩

theorem sorted_put (h : g.Sorted) (e : Entry) : (g.put e).Sorted := sorted_putEntry e h

/-- On entries in tag order, each entry is the one found for its tag. -/
theorem find?_of_mem (h : g.Sorted) {e : Entry} (he : e ∈ g.entries) : g.find? e.tag = some e := by
  obtain ⟨entries⟩ := g
  simp only [find?]
  induction entries with
  | nil => simp at he
  | cons f fs ih =>
      simp only [Sorted, List.map_cons, List.pairwise_cons, List.mem_map] at h
      rcases List.mem_cons.1 he with rfl | he
      · simp
      · have hne : f.tag ≠ e.tag := ne_of_lt (h.1 _ ⟨e, he, rfl⟩)
        simp [hne, ih h.2 he]

/-! ### What one call does -/

/-- Everything a successful `add` can do: create the tag unmarked with the one expansion, find
the expansion there already (on a marked tag, only when the mark allows it), or append it to an
unmarked entry. -/
theorem add_eq_ok (h : g.add p = .ok (b, g')) :
    (g.find? p.lhs = none ∧ b = true ∧ g' = g.put ⟨p.lhs, false, [p.rhs]⟩) ∨
    ∃ e, g.find? p.lhs = some e ∧
      ((e.has p.rhs = true ∧ (e.preterminal = true → e.Admits p.rhs) ∧ b = false ∧ g' = g) ∨
        (e.has p.rhs = false ∧ e.preterminal = false ∧ b = true ∧
          g' = g.put { e with expansions := e.expansions ++ [p.rhs] })) := by
  unfold add at h
  rcases hf : g.find? p.lhs with - | e
  · simp only [hf, Except.ok.injEq, Prod.mk.injEq] at h
    exact .inl ⟨rfl, h.1.symm, h.2.symm⟩
  · simp only [hf] at h
    refine .inr ⟨e, rfl, ?_⟩
    by_cases hc : e.preterminal = true ∧ ¬ e.Admits p.rhs
    · simp [hc] at h
    · rw [if_neg hc] at h
      have hadm : e.preterminal = true → e.Admits p.rhs := fun hp => by simpa [hp] using hc
      cases hh : e.has p.rhs <;> simp only [hh] at h
      · -- a mark admits only an expansion that is there, so this tag is unmarked
        have hp : e.preterminal = false := by
          cases hm : e.preterminal
          · rfl
          · simp [(hadm hm).2] at hh
        simp_all
      · simp_all

/-- `add` is refused exactly on a marked tag whose expansions are not the requested one. -/
theorem add_eq_error {k : Conflict} (h : g.add p = .error k) :
    ∃ e, g.find? p.lhs = some e ∧ e.preterminal = true ∧ ¬ e.Admits p.rhs ∧
      k = e.conflict p.rhs := by
  unfold add at h
  rcases hf : g.find? p.lhs with - | e
  · simp [hf] at h
  · simp only [hf] at h
    by_cases hc : e.preterminal = true ∧ ¬ e.Admits p.rhs
    · simp only [hc, not_false_eq_true, and_self, if_true, Except.error.injEq] at h
      exact ⟨e, rfl, hc.1, hc.2, h.symm⟩
    · rw [if_neg hc] at h
      split at h <;> simp at h

/-- Everything a successful `addPreterminal` can do: create the tag marked with the one
expansion, or mark an existing tag whose expansions are exactly the requested one. -/
theorem addPreterminal_eq_ok (h : g.addPreterminal p = .ok (b, g')) :
    (g.find? p.lhs = none ∧ b = true ∧ g' = g.put ⟨p.lhs, true, [p.rhs]⟩) ∨
    ∃ e, g.find? p.lhs = some e ∧ e.Admits p.rhs ∧ b = false ∧
      g' = g.put { e with preterminal := true } := by
  unfold addPreterminal at h
  rcases hf : g.find? p.lhs with - | e
  · simp only [hf, Except.ok.injEq, Prod.mk.injEq] at h
    exact .inl ⟨rfl, h.1.symm, h.2.symm⟩
  · simp only [hf] at h
    by_cases ha : e.Admits p.rhs
    · simp only [ha, if_true, Except.ok.injEq, Prod.mk.injEq] at h
      exact .inr ⟨e, rfl, ha, h.1.symm, h.2.symm⟩
    · simp [ha] at h

/-- `addPreterminal` is refused exactly on an existing tag whose expansions are not the
requested one. -/
theorem addPreterminal_eq_error {k : Conflict} (h : g.addPreterminal p = .error k) :
    ∃ e, g.find? p.lhs = some e ∧ ¬ e.Admits p.rhs ∧ k = e.conflict p.rhs := by
  unfold addPreterminal at h
  rcases hf : g.find? p.lhs with - | e
  · simp [hf] at h
  · simp only [hf] at h
    by_cases ha : e.Admits p.rhs
    · simp [ha] at h
    · simp only [ha, if_false, Except.error.injEq] at h
      exact ⟨e, rfl, ha, h.symm⟩

/-! ### Calls as data -/

/-- A call that changes a grammar. -/
inductive Call where
  /-- `Grammar.add`. -/
  | add (p : Production)
  /-- `Grammar.addPreterminal`. -/
  | addPreterminal (p : Production)
deriving DecidableEq, Repr

/-- The rule that a call adds. -/
def Call.rule : Call → Production
  | .add p | .addPreterminal p => p

/-- The call marks its tag as a preterminal. -/
def Call.marks : Call → Bool
  | .add _ => false
  | .addPreterminal _ => true

/-- Makes the call. -/
def Call.apply : Call → Grammar → Except Conflict (Bool × Grammar)
  | .add p, g => g.add p
  | .addPreterminal p, g => g.addPreterminal p

@[simp] theorem Call.rule_add (p : Production) : (Call.add p).rule = p := rfl

@[simp] theorem Call.rule_addPreterminal (p : Production) : (Call.addPreterminal p).rule = p :=
  rfl

@[simp] theorem Call.marks_add (p : Production) : (Call.add p).marks = false := rfl

@[simp] theorem Call.marks_addPreterminal (p : Production) :
    (Call.addPreterminal p).marks = true := rfl

/-- The grammar after a call: a refused call leaves it as it was. -/
def Call.next (c : Call) (g : Grammar) : Grammar :=
  match c.apply g with
  | .ok (_, g') => g'
  | .error _ => g

/-- The grammar after the calls in order, each made whatever the ones before returned. -/
def replay (g : Grammar) (cs : List Call) : Grammar := cs.foldl (fun g c => c.next g) g

/-- Makes the calls in order up to the first refused one. The grammar returned holds the calls
made before it. -/
def runCalls : Grammar → List Call → Grammar × Option Conflict
  | g, [] => (g, none)
  | g, c :: cs =>
    match c.apply g with
    | .ok (_, g') => runCalls g' cs
    | .error k => (g, some k)

/-- The calls that add the rules of a listing line: its preterminal rules, then its own rule. -/
def Call.ofLine (r : LineRules) : List Call :=
  r.preterminals.map .addPreterminal ++ [.add r.main]

@[simp] theorem replay_nil (g : Grammar) : g.replay [] = g := rfl

@[simp] theorem replay_cons (g : Grammar) (c : Call) (cs : List Call) :
    g.replay (c :: cs) = (c.next g).replay cs := rfl

theorem replay_append (g : Grammar) (cs cs' : List Call) :
    g.replay (cs ++ cs') = (g.replay cs).replay cs' := List.foldl_append

theorem runCalls_append (g : Grammar) (cs cs' : List Call) :
    g.runCalls (cs ++ cs') =
      match g.runCalls cs with
      | (g', none) => g'.runCalls cs'
      | (g', some k) => (g', some k) := by
  induction cs generalizing g with
  | nil => rfl
  | cons c cs ih =>
      simp only [List.cons_append, runCalls]
      rcases c.apply g with k | ⟨_, g'⟩
      · rfl
      · exact ih g'

theorem addPreterminals_eq_runCalls (g : Grammar) (ps : List Production) :
    g.addPreterminals ps = g.runCalls (ps.map .addPreterminal) := by
  induction ps generalizing g with
  | nil => rfl
  | cons p ps ih =>
      simp only [addPreterminals, List.map_cons, runCalls, Call.apply]
      rcases g.addPreterminal p with k | ⟨_, g'⟩
      · rfl
      · exact ih g'

/-- Adding the rules of a listing line is running its calls. -/
theorem addLine_eq_runCalls (g : Grammar) (r : LineRules) :
    g.addLine r = g.runCalls (Call.ofLine r) := by
  rw [Call.ofLine, runCalls_append, ← addPreterminals_eq_runCalls, addLine]
  rcases g.addPreterminals r.preterminals with ⟨g', _ | k⟩
  · cases h : g'.add r.main <;> simp [runCalls, Call.apply, h]
  · rfl

/-! ### Properties that every call keeps -/

section Induction

variable (P : Grammar → Prop) {cs : List Call}

/-- A property that every successful call of the list keeps holds after any replay. -/
theorem replay_induction
    (step : ∀ c ∈ cs, ∀ g g' b, P g → c.apply g = .ok (b, g') → P g')
    {g : Grammar} (h : P g) : P (g.replay cs) := by
  induction cs generalizing g with
  | nil => exact h
  | cons c cs ih =>
      have hnext : P (c.next g) := by
        unfold Call.next
        rcases hc : c.apply g with k | ⟨b, g'⟩
        · exact h
        · exact step c (by simp) g g' b h hc
      exact ih (fun c hc => step c (by simp [hc])) hnext

/-- A property that every successful call of the list keeps holds after running it, up to a
refusal or not. -/
theorem runCalls_induction
    (step : ∀ c ∈ cs, ∀ g g' b, P g → c.apply g = .ok (b, g') → P g')
    {g : Grammar} (h : P g) : P (g.runCalls cs).1 := by
  induction cs generalizing g with
  | nil => exact h
  | cons c cs ih =>
      simp only [runCalls]
      rcases hc : c.apply g with k | ⟨b, g'⟩
      · exact h
      · exact ih (fun c hc => step c (by simp [hc])) (step c (by simp) g g' b h hc)

end Induction

/-- A successful call never changes the entry of a marked tag. -/
theorem find?_of_apply_of_preterminal {c : Call} {e : Entry} (hc : c.apply g = .ok (b, g'))
    (he : g.find? t = some e) (hp : e.preterminal = true) : g'.find? t = some e := by
  cases c with
  | add p =>
      rcases add_eq_ok hc with ⟨hn, -, rfl⟩ | ⟨f, hf, ⟨-, -, -, rfl⟩ | ⟨-, hfp, -, rfl⟩⟩
      · have hne : p.lhs ≠ t := by rintro rfl; simp [hn] at he
        rw [find?_put_of_ne g _ hne, he]
      · exact he
      · have hft : f.tag = p.lhs := (find?_eq_some hf).2
        by_cases hpt : p.lhs = t
        · -- only an unmarked tag gets an expansion appended
          subst hpt
          obtain rfl : f = e := Option.some.inj (hf.symm.trans he)
          simp [hp] at hfp
        · rw [find?_put_of_ne g _ (by simpa [hft] using hpt), he]
  | addPreterminal p =>
      rcases addPreterminal_eq_ok hc with ⟨hn, -, rfl⟩ | ⟨f, hf, -, -, rfl⟩
      · have hne : p.lhs ≠ t := by rintro rfl; simp [hn] at he
        rw [find?_put_of_ne g ⟨p.lhs, true, [p.rhs]⟩ hne, he]
      · have hft : f.tag = p.lhs := (find?_eq_some hf).2
        by_cases hpt : p.lhs = t
        · -- marking a marked tag again changes nothing
          subst hpt
          obtain rfl : f = e := Option.some.inj (hf.symm.trans he)
          have hsame : { f with preterminal := true } = f := by cases f; simp_all
          rw [hsame, ← hft, find?_put_self]
        · rw [find?_put_of_ne g _ (by simpa [hft] using hpt), he]

/-- A successful call never clears a mark. -/
theorem isPreterminal_of_apply {c : Call} (hc : c.apply g = .ok (b, g'))
    (ht : g.isPreterminal t = true) : g'.isPreterminal t = true := by
  obtain ⟨e, he, hp⟩ := isPreterminal_iff.1 ht
  exact isPreterminal_iff.2 ⟨e, find?_of_apply_of_preterminal hc he hp, hp⟩

/-- A successful `addPreterminal` marks its tag. -/
theorem isPreterminal_of_addPreterminal (h : g.addPreterminal p = .ok (b, g')) :
    g'.isPreterminal p.lhs = true := by
  rcases addPreterminal_eq_ok h with ⟨-, -, rfl⟩ | ⟨e, he, -, -, rfl⟩
  · simp [isPreterminal, find?_put]
  · rw [← (find?_eq_some he).2]
    simp [isPreterminal, find?_put]

/-- After preterminal rules are all added, each of their tags is marked. -/
theorem isPreterminal_of_runCalls {ps : List Production}
    (h : (g.runCalls (ps.map .addPreterminal)).2 = none) :
    ∀ q ∈ ps, (g.runCalls (ps.map .addPreterminal)).1.isPreterminal q.lhs = true := by
  induction ps generalizing g with
  | nil => simp
  | cons p ps ih =>
      simp only [List.map_cons, runCalls, Call.apply] at h ⊢
      rcases hp : g.addPreterminal p with k | ⟨b, g₁⟩ <;> simp only [hp] at h ⊢
      · cases h
      · intro q hq
        rcases List.mem_cons.1 hq with rfl | hq
        · -- the mark of `q` survives the rules after it
          exact runCalls_induction (fun g => g.isPreterminal q.lhs = true)
            (fun _ _ _ _ _ h hc => isPreterminal_of_apply hc h) (isPreterminal_of_addPreterminal hp)
        · exact ih h q hq

end Grammar

end Pcfg

