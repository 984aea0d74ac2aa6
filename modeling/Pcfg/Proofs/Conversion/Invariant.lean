import Mathlib
import Pcfg.Conversion
import Pcfg.Proofs.Grammar.WellFormed
import Pcfg.Proofs.Listing.Homogenize
/-!
# The grammar of every conversion state

A conversion feeds listing lines one at a time, and a refused line keeps the preterminal rules
it added before the refusal. Whatever lines are fed, refused ones included, the grammar stays
normalized (`Grammar.Normalized`): it is well-formed, every expansion is nonempty and
homogeneous, a marked tag is the preterminal `P_W` of a word `w` and expands to `w` alone, and
every preterminal that an expansion names is a marked tag. The entry of a marked tag never
changes afterwards.

Feeding a line is running its calls (`feed_grammar`). The preterminal rules of a line are rules
of words and keep the invariant on any grammar; the line's own rule keeps it once they are all
in, since every preterminal it names is then marked (`Grammar.isPreterminal_of_runCalls`).
`Grammar.Call.Fits` says what a call has to be for this, and `Grammar.normalized_apply` is the
one step lemma.

Main statement: `Conversion.feedEach_normalized`.
-/

namespace Pcfg

namespace Grammar

variable {g g' : Grammar} {b : Bool}

/-- A right-hand side with the keys of one word is that word. -/
theorem Rhs.eq_terminal_of_sameKey {r : Rhs} {w : String}
    (h : Rhs.sameKey [.terminal w] r = true) : r = [.terminal w] := by
  have hk : r.key = [(true, w)] := by
    simpa [Rhs.key, Symbol.key, Symbol.isTerminal, Symbol.name] using
      ((Rhs.sameKey_iff _ _).1 h).symm
  obtain ⟨s, rfl⟩ : ∃ s, r = [s] := by
    have hlen : r.length = 1 := by simpa [Rhs.key] using congrArg List.length hk
    exact List.length_eq_one_iff.1 hlen
  cases s <;> simp_all [Rhs.key, Symbol.key, Symbol.isTerminal, Symbol.name]

/-! ### The invariant -/

/-- What every grammar built from listing lines satisfies. -/
structure Normalized (g : Grammar) : Prop extends g.WellFormed where
  /-- Every expansion is nonempty and homogeneous. -/
  homogeneous : ∀ e ∈ g.entries, ∀ r ∈ e.expansions,
    r ≠ [] ∧ (Production.mk e.tag r).Homogeneous
  /-- A marked tag is the preterminal of a word and expands to that word alone. -/
  preterminal_word : ∀ e ∈ g.entries, e.preterminal = true →
    ∃ w, e.expansions = [[.terminal w]] ∧ e.tag = (Symbol.preterminalOf w).name
  /-- Every preterminal named in an expansion is a marked tag. -/
  preterminal_marked : ∀ e ∈ g.entries, ∀ r ∈ e.expansions, ∀ n,
    Symbol.preterminal n ∈ r → g.isPreterminal n = true

theorem normalized_empty : ({} : Grammar).Normalized :=
  ⟨wellFormed_empty, by simp, by simp, by simp⟩

/-- `put` keeps the invariant when the new entry has its shape, names only tags marked before,
and the marks stay. -/
theorem Normalized.put (h : g.Normalized) {e : Entry} (hw : (g.put e).WellFormed)
    (hhom : ∀ r ∈ e.expansions, r ≠ [] ∧ (Production.mk e.tag r).Homogeneous)
    (hword : e.preterminal = true →
      ∃ w, e.expansions = [[.terminal w]] ∧ e.tag = (Symbol.preterminalOf w).name)
    (hmark : ∀ r ∈ e.expansions, ∀ n, Symbol.preterminal n ∈ r → g.isPreterminal n = true)
    (hkeep : ∀ n, g.isPreterminal n = true → (g.put e).isPreterminal n = true) :
    (g.put e).Normalized := by
  refine ⟨hw, forall_mem_put hhom h.homogeneous, forall_mem_put hword h.preterminal_word, ?_⟩
  intro x hx r hr n hn
  apply hkeep
  rcases mem_put hx with rfl | hx
  · exact hmark r hr n hn
  · exact h.preterminal_marked x hx r hr n hn

/-- A call as a listing line makes it on `g`: a preterminal rule is the rule of a word, and an
own rule is nonempty and homogeneous, and every preterminal it names is marked in `g`. -/
def Call.Fits : Call → Grammar → Prop
  | .addPreterminal p, _ => ∃ w, p = Listing.preterminalRule w
  | .add p, g => p.rhs ≠ [] ∧ p.Homogeneous ∧
      ∀ n, Symbol.preterminal n ∈ p.rhs → g.isPreterminal n = true

/-- Every successful call that fits keeps the invariant. -/
theorem normalized_apply {c : Call} (h : g.Normalized) (hfit : c.Fits g)
    (hc : c.apply g = .ok (b, g')) : g'.Normalized := by
  have hw := wellFormed_apply h.toWellFormed hc
  have hkeep : ∀ n, g.isPreterminal n = true → g'.isPreterminal n = true :=
    fun _ hn => isPreterminal_of_apply hc hn
  cases c with
  | add p =>
      obtain ⟨hne, hhom, hmark⟩ := hfit
      rcases add_eq_ok hc with ⟨-, -, rfl⟩ | ⟨e, he, ⟨-, -, -, rfl⟩ | ⟨-, hp, -, rfl⟩⟩
      · -- a new unmarked tag with the one expansion
        refine h.put hw (by simpa using And.intro hne hhom) (by simp) ?_ hkeep
        simpa using hmark
      · exact h
      · -- the expansion is appended to an unmarked entry
        have hmem := (find?_eq_some he).1
        have htag : e.tag = p.lhs := (find?_eq_some he).2
        refine h.put hw ?_ (by simp [hp]) ?_ hkeep
        · intro r hr
          rcases List.mem_append.1 hr with hr | hr
          · exact h.homogeneous e hmem r hr
          · simp only [List.mem_singleton] at hr
            subst hr
            exact ⟨hne, by simpa [htag] using hhom⟩
        · intro r hr n hn
          rcases List.mem_append.1 hr with hr | hr
          · exact h.preterminal_marked e hmem r hr n hn
          · simp only [List.mem_singleton] at hr
            subst hr
            exact hmark n hn
  | addPreterminal p =>
      obtain ⟨w, rfl⟩ := hfit
      rcases addPreterminal_eq_ok hc with ⟨-, -, rfl⟩ | ⟨e, he, ha, -, rfl⟩
      · -- a new tag marked with its word
        refine h.put hw ?_ (fun _ => ⟨w, rfl, rfl⟩) (by simp [Listing.preterminalRule]) hkeep
        intro r hr
        simp only [List.mem_singleton] at hr
        subst hr
        exact ⟨by simp [Listing.preterminalRule], Listing.homogeneous_singleton _ _⟩
      · -- an existing tag whose one expansion has the keys of the word is that word
        have hmem := (find?_eq_some he).1
        have htag : e.tag = (Symbol.preterminalOf w).name := (find?_eq_some he).2
        obtain ⟨r, hr⟩ := List.length_eq_one_iff.1 ha.1
        have hrw : r = [.terminal w] := by
          have hany := ha.2
          simp only [Entry.has, hr, List.any_cons, List.any_nil, Bool.or_false] at hany
          exact Rhs.eq_terminal_of_sameKey hany
        refine h.put hw (h.homogeneous e hmem) (fun _ => ⟨w, by rw [hr, hrw], htag⟩)
          (h.preterminal_marked e hmem) hkeep

/-- Running the calls of a line that is read keeps the invariant, whether one of them is
refused or not. -/
theorem Normalized.runCalls_line (h : g.Normalized) {L : Listing.Line} (hL : L.children ≠ []) :
    (g.runCalls (Call.ofLine L.homogenize)).1.Normalized := by
  have hpre : ∀ c ∈ L.homogenize.preterminals.map Call.addPreterminal, ∀ g g' b,
      Normalized g → c.apply g = .ok (b, g') → Normalized g' := by
    intro c hc g g' b hg hcg
    obtain ⟨p, hp, rfl⟩ := List.mem_map.1 hc
    obtain ⟨w, -, rfl⟩ := Listing.exists_child_of_mem_preterminals hp
    have hfit : (Call.addPreterminal (Listing.preterminalRule w)).Fits g := ⟨w, rfl⟩
    exact normalized_apply hg hfit hcg
  have hg₁ := runCalls_induction _ hpre h
  rw [Call.ofLine, runCalls_append]
  rcases hr : g.runCalls (L.homogenize.preterminals.map Call.addPreterminal) with ⟨g₁, _ | k⟩
  · -- every preterminal rule is in, so the own rule names only marked tags
    have hmarked := isPreterminal_of_runCalls (show (g.runCalls _).2 = none by rw [hr])
    rw [hr] at hg₁ hmarked
    have hfit : (Call.add L.homogenize.main).Fits g₁ := by
      obtain ⟨hne, hhom⟩ := Listing.main_homogeneous hL
      refine ⟨hne, hhom, fun n hn => ?_⟩
      obtain ⟨q, hq, rfl⟩ := Listing.exists_preterminal_of_mem_main hn
      exact hmarked q hq
    show (g₁.runCalls [.add L.homogenize.main]).1.Normalized
    simp only [runCalls]
    rcases hc : (Call.add L.homogenize.main).apply g₁ with k | ⟨b, g₂⟩
    · exact hg₁
    · exact normalized_apply hg₁ hfit hc
  · rw [hr] at hg₁
    exact hg₁

end Grammar

end Pcfg

namespace Pcfg

namespace Conversion

/-- The state after feeding the lines in order, each whatever the ones before returned. -/
def feedEach (c : Conversion) (ls : List String) : Conversion :=
  ls.foldl (fun c l => (c.feed l).1) c

theorem feedEach_append (c : Conversion) (ls ls' : List String) :
    c.feedEach (ls ++ ls') = (c.feedEach ls).feedEach ls' :=
  List.foldl_append

/-- Feeding a line leaves the grammar as it is when the line is not read, and runs the calls of
the line otherwise. -/
theorem feed_grammar (c : Conversion) (l : String) :
    (c.feed l).1.grammar =
      match Listing.Line.ofString? l with
      | .error _ => c.grammar
      | .ok L => (c.grammar.runCalls (Grammar.Call.ofLine L.homogenize)).1 := by
  unfold feed
  rcases Listing.Line.ofString? l with r | L
  · rfl
  · simp only [← Grammar.addLine_eq_runCalls]
    rcases c.grammar.addLine L.homogenize with ⟨g, _ | k⟩ <;> rfl

theorem normalized_feed {c : Conversion} (h : c.grammar.Normalized) (l : String) :
    (c.feed l).1.grammar.Normalized := by
  rw [feed_grammar]
  rcases hl : Listing.Line.ofString? l with r | L
  · exact h
  · exact h.runCalls_line (Listing.Line.children_ne_nil_of_ofString? hl)

theorem normalized_feedEach {c : Conversion} (h : c.grammar.Normalized) (ls : List String) :
    (c.feedEach ls).grammar.Normalized := by
  induction ls generalizing c with
  | nil => exact h
  | cons l ls ih => exact ih (normalized_feed h l)

/-- The entry of a marked tag is the same after any lines fed later. -/
theorem find?_feedEach_of_preterminal {c : Conversion} {t : String} {e : Grammar.Entry}
    (he : c.grammar.find? t = some e) (hp : e.preterminal = true) (ls : List String) :
    (c.feedEach ls).grammar.find? t = some e := by
  induction ls generalizing c with
  | nil => exact he
  | cons l ls ih =>
      apply ih
      rw [feed_grammar]
      split
      · exact he
      · exact Grammar.runCalls_induction (fun g => g.find? t = some e)
          (fun _ _ _ _ _ hg hc => Grammar.find?_of_apply_of_preterminal hc hg hp) he

/-- Whatever listing lines are fed to a new conversion, refused ones included: every tag has an
expansion, and every expansion is nonempty and homogeneous; a marked tag is `P_` followed by the
upper case of a word `w`, expands to `w` alone, and keeps that expansion and its mark whatever
lines are fed later; and every preterminal named in an expansion is a marked tag. -/
theorem feedEach_normalized (ls : List String) :
    (∀ t rs, (feedEach {} ls).grammar.expansions? t = some rs →
      rs ≠ [] ∧ ∀ r ∈ rs, r ≠ [] ∧ (Production.mk t r).Homogeneous) ∧
    (∀ t, (feedEach {} ls).grammar.isPreterminal t = true → ∃ w, t = "P_" ++ Text.upper w ∧
      (feedEach {} ls).grammar.expansions? t = some [[.terminal w]] ∧ ∀ ls',
        (feedEach {} (ls ++ ls')).grammar.isPreterminal t = true ∧
        (feedEach {} (ls ++ ls')).grammar.expansions? t = some [[.terminal w]]) ∧
    (∀ t rs, (feedEach {} ls).grammar.expansions? t = some rs → ∀ r ∈ rs, ∀ n,
      Symbol.preterminal n ∈ r → (feedEach {} ls).grammar.isPreterminal n = true) := by
  have h : (feedEach {} ls).grammar.Normalized := normalized_feedEach Grammar.normalized_empty ls
  refine ⟨?_, ?_, ?_⟩
  · intro t rs ht
    obtain ⟨e, hm, rfl, rfl, hwf⟩ := h.toWellFormed.expansions?_eq_some ht
    exact ⟨hwf.nonempty, h.homogeneous e hm⟩
  · intro t ht
    obtain ⟨e, he, hp⟩ := Grammar.isPreterminal_iff.1 ht
    obtain ⟨hm, htag⟩ := Grammar.find?_eq_some he
    obtain ⟨w, hexp, hw⟩ := h.preterminal_word e hm hp
    refine ⟨w, htag ▸ hw, by simp [Grammar.expansions?, he, hexp], fun ls' => ?_⟩
    have hlater := find?_feedEach_of_preterminal he hp ls'
    rw [feedEach_append]
    exact ⟨Grammar.isPreterminal_iff.2 ⟨e, hlater, hp⟩,
      by simp [Grammar.expansions?, hlater, hexp]⟩
  · intro t rs ht r hr n hn
    obtain ⟨e, hm, -, rfl, -⟩ := h.toWellFormed.expansions?_eq_some ht
    exact h.preterminal_marked e hm r hr n hn

end Conversion

end Pcfg
