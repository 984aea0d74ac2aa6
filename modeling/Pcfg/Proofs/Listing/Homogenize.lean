import Mathlib
import Pcfg.Listing.Homogenize
import Pcfg.Proofs.RuleFile.Rule
/-!
# The rules of a listing line

Facts about `Listing.Line.homogenize` for a line with a child, which every line that is read has
(`Line.children_ne_nil_of_ofString?`), and whose tag and children are words of the line
(`Line.words_of_ofString?`): its own rule has a nonempty, homogeneous right-hand side
(`main_homogeneous`); every preterminal rule it lists is the rule of one of its children
(`exists_child_of_mem_preterminals`); and every preterminal in its own rule is the tag of one
of those rules (`exists_preterminal_of_mem_main`). A listing token is never read as a
preterminal, so the preterminals of the own rule are exactly the wrapped words.

For every line, with or without children, the rules are also given child by child
(`homogenize_main_eq`, `homogenize_preterminals_eq`): the preterminal rules are those of the word
children with repeats dropped (`eraseDups`), which is the same as dropping repeated words, since
a word's rule determines the word (`preterminalRule_injective`).

Main statement: `homogenize_symbols_and_rules`.
-/

namespace Pcfg

namespace Listing

variable {l : Line}

/-! ### Lines that are read have a child -/

theorem Line.children_ne_nil_of_ofTagWords {form : Form} {ws : List String}
    (h : Line.ofTagWords form ws = .ok l) : l.children ≠ [] := by
  unfold Line.ofTagWords at h
  split at h
  · cases h
    simp
  · cases h

theorem Line.children_ne_nil_of_ofString? {s : String} (h : Line.ofString? s = .ok l) :
    l.children ≠ [] := by
  unfold Line.ofString? Line.ofWords? at h
  split at h
  · cases h
  · split_ifs at h
    · split at h
      · split_ifs at h
        · exact Line.children_ne_nil_of_ofTagWords h
      · cases h
    · exact Line.children_ne_nil_of_ofTagWords h

/-! ### The words of a line -/

theorem Line.words_of_ofTagWords {form : Form} {ws : List String}
    (h : Line.ofTagWords form ws = .ok l) : l.tag ∈ ws ∧ ∀ c ∈ l.children, c ∈ ws := by
  unfold Line.ofTagWords at h
  split at h
  · cases h
    refine ⟨by simp, fun c hc => ?_⟩
    simp only [List.mem_cons] at hc ⊢
    tauto
  · cases h

/-- The tag and the children of a line that is read are words of the line. -/
theorem Line.words_of_ofString? {s : String} (h : Line.ofString? s = .ok l) :
    l.tag ∈ Text.words s ∧ ∀ c ∈ l.children, c ∈ Text.words s := by
  unfold Line.ofString? Line.ofWords? at h
  split at h
  · cases h
  · rename_i p rest hws
    rw [hws]
    split_ifs at h
    · split at h
      · rename_i q ws
        split_ifs at h
        obtain ⟨ht, hc⟩ := Line.words_of_ofTagWords h
        exact ⟨by simp [ht], fun c h' => by simp [hc c h']⟩
      · cases h
    · exact Line.words_of_ofTagWords h

/-! ### Symbols of a listing -/

/-- A listing token is a non-terminal or a word, never a preterminal. -/
theorem ofListingToken_cases (t : String) :
    Symbol.ofListingToken t = .nonterminal t ∨ Symbol.ofListingToken t = .terminal t := by
  unfold Symbol.ofListingToken
  split_ifs
  · exact .inl rfl
  · exact .inr rfl

@[simp] theorem isTerminal_wrapWord (s : Symbol) : (wrapWord s).isTerminal = false := by
  cases s <;> rfl

/-- One symbol is a homogeneous right-hand side, a word included. -/
theorem homogeneous_singleton (tag : String) (s : Symbol) : (Production.mk tag [s]).Homogeneous := by
  cases h : s.isTerminal
  · exact .inl (by simp [Production.Nonlexical, h])
  · exact .inr ⟨rfl, by simp [h]⟩

/-! ### The rules of a line -/

/-- A line of several children: every word is wrapped, and each word has its rule. -/
theorem homogenize_of_one_lt (h : 1 < l.children.length) :
    l.homogenize =
      { main := ⟨l.tag, (l.children.map Symbol.ofListingToken).map wrapWord⟩
        preterminals :=
          ((l.children.map Symbol.ofListingToken).filterMap word?).eraseDups.map preterminalRule } := by
  simp [Line.homogenize, h]

/-- A line of at most one child keeps it as it is and has no preterminal rule. -/
theorem homogenize_of_le_one (h : l.children.length ≤ 1) :
    l.homogenize = { main := ⟨l.tag, l.children.map Symbol.ofListingToken⟩, preterminals := [] } := by
  simp [Line.homogenize, Nat.not_lt.2 h]

@[simp] theorem main_lhs (l : Line) : l.homogenize.main.lhs = l.tag := by
  by_cases h : 1 < l.children.length
  · rw [homogenize_of_one_lt h]
  · rw [homogenize_of_le_one (Nat.not_lt.1 h)]

/-- The own rule of a line with a child is nonempty and homogeneous. -/
theorem main_homogeneous (h : l.children ≠ []) :
    l.homogenize.main.rhs ≠ [] ∧ l.homogenize.main.Homogeneous := by
  by_cases hlen : 1 < l.children.length
  · -- several children: every word is wrapped, so nothing is a word
    rw [homogenize_of_one_lt hlen]
    refine ⟨by simpa using h, .inl ?_⟩
    intro s hs
    obtain ⟨s', -, rfl⟩ := List.mem_map.1 hs
    exact isTerminal_wrapWord s'
  · -- a single child stays as it is
    rw [homogenize_of_le_one (Nat.not_lt.1 hlen)]
    obtain ⟨c, hc⟩ : ∃ c, l.children = [c] := by
      match hl : l.children, h with
      | [c], _ => exact ⟨c, rfl⟩
      | _ :: _ :: _, _ => simp [hl] at hlen
    simp only [hc, List.map_cons, List.map_nil]
    exact ⟨by simp, homogeneous_singleton _ _⟩

/-- Every preterminal rule of a line is the rule of one of its children. -/
theorem exists_child_of_mem_preterminals {p : Production} (hp : p ∈ l.homogenize.preterminals) :
    ∃ w ∈ l.children, p = preterminalRule w := by
  by_cases hlen : 1 < l.children.length
  · rw [homogenize_of_one_lt hlen] at hp
    obtain ⟨w, hw, rfl⟩ := List.mem_map.1 hp
    obtain ⟨s, hs, hsw⟩ := List.mem_filterMap.1 (List.mem_eraseDups.1 hw)
    obtain ⟨t, ht, rfl⟩ := List.mem_map.1 hs
    -- a token read as a word is that word
    rcases ofListingToken_cases t with h | h <;> rw [h] at hsw
    · simp [word?] at hsw
    · simp only [word?, Option.some.injEq] at hsw
      exact ⟨w, hsw ▸ ht, rfl⟩
  · simp [homogenize_of_le_one (Nat.not_lt.1 hlen)] at hp

/-- Every preterminal in the own rule of a line is the tag of one of its preterminal rules. -/
theorem exists_preterminal_of_mem_main {n : String}
    (hn : Symbol.preterminal n ∈ l.homogenize.main.rhs) :
    ∃ p ∈ l.homogenize.preterminals, p.lhs = n := by
  by_cases hlen : 1 < l.children.length
  · rw [homogenize_of_one_lt hlen] at hn ⊢
    obtain ⟨s, hs, hsn⟩ := List.mem_map.1 hn
    obtain ⟨t, -, rfl⟩ := List.mem_map.1 hs
    rcases ofListingToken_cases t with ht | ht <;> rw [ht] at hsn hs
    · simp [wrapWord] at hsn
    · -- the word `t` is wrapped as its preterminal, whose rule is listed
      simp only [wrapWord, Symbol.preterminalOf, Symbol.preterminal.injEq] at hsn
      refine ⟨preterminalRule t, List.mem_map.2 ⟨t, ?_, rfl⟩, hsn⟩
      rw [List.mem_eraseDups]
      exact List.mem_filterMap.2 ⟨.terminal t, hs, rfl⟩
  · -- a single child is a non-terminal or a word
    rw [homogenize_of_le_one (Nat.not_lt.1 hlen)] at hn
    obtain ⟨t, -, ht⟩ := List.mem_map.1 hn
    rcases ofListingToken_cases t with h | h <;> simp [h] at ht

/-! ### Every line, child by child -/

/-- Dropping repeats commutes with an injective map: the first occurrences are the same. -/
theorem eraseDupsBy_loop_map {α β : Type} [BEq α] [LawfulBEq α] [BEq β] [LawfulBEq β]
    {f : α → β} (hf : Function.Injective f) (l bs : List α) :
    List.eraseDupsBy.loop (· == ·) (l.map f) (bs.map f) =
      (List.eraseDupsBy.loop (· == ·) l bs).map f := by
  induction l generalizing bs with
  | nil => simp [List.eraseDupsBy.loop, List.map_reverse]
  | cons a l ih =>
      have hany : (bs.map f).any (f a == ·) = bs.any (a == ·) := by
        rw [List.any_map]
        congr 1
        funext x
        show (f a == f x) = (a == x)
        exact Bool.eq_iff_iff.2 (by rw [beq_iff_eq, beq_iff_eq, hf.eq_iff])
      simp only [List.map_cons, List.eraseDupsBy.loop, hany]
      cases bs.any (a == ·)
      · exact ih (a :: bs)
      · exact ih bs

theorem eraseDups_map_of_injective {α β : Type} [BEq α] [LawfulBEq α] [BEq β] [LawfulBEq β]
    {f : α → β} (hf : Function.Injective f) (l : List α) :
    (l.map f).eraseDups = l.eraseDups.map f :=
  eraseDupsBy_loop_map hf l []

theorem preterminalRule_injective : Function.Injective preterminalRule := by
  intro w w' h
  simpa [preterminalRule] using congrArg Production.rhs h

/-- The symbol a child stands as among several children. -/
theorem wrapWord_ofListingToken (c : String) :
    wrapWord (Symbol.ofListingToken c) =
      if Symbol.StartsUpper c then .nonterminal c else .preterminal ("P_" ++ Text.upper c) := by
  unfold Symbol.ofListingToken
  split_ifs <;> rfl

theorem filterMap_word?_ofListingToken (cs : List String) :
    (cs.map Symbol.ofListingToken).filterMap word? = cs.filter fun c => ¬ Symbol.StartsUpper c := by
  induction cs with
  | nil => rfl
  | cons c cs ih =>
      rw [List.map_cons, List.filterMap_cons, List.filter_cons, ih]
      by_cases h : Symbol.StartsUpper c <;> simp [Symbol.ofListingToken, h, word?]

/-- The own rule of a line, child by child. -/
theorem homogenize_main_eq (l : Line) :
    l.homogenize.main = ⟨l.tag, l.children.map fun c =>
      if Symbol.StartsUpper c then .nonterminal c
      else if l.children.length = 1 then .terminal c else .preterminal ("P_" ++ Text.upper c)⟩ := by
  by_cases hlen : 1 < l.children.length
  · rw [homogenize_of_one_lt hlen]
    dsimp only
    rw [List.map_map]
    congr 1
    apply List.map_congr_left
    intro c _
    simp [wrapWord_ofListingToken, show l.children.length ≠ 1 by omega]
  · -- at most one child, and a child there makes it exactly one
    rw [homogenize_of_le_one (Nat.not_lt.1 hlen)]
    dsimp only
    congr 1
    apply List.map_congr_left
    intro c hc
    have hone : l.children.length = 1 := by
      have := List.length_pos_of_mem hc
      omega
    simp [Symbol.ofListingToken, hone]

/-- The preterminal rules of a line: with two children or more, the rule of each word child,
once, in order of first occurrence. -/
theorem homogenize_preterminals_eq (l : Line) :
    l.homogenize.preterminals =
      if 1 < l.children.length then
        ((l.children.filter fun c => ¬ Symbol.StartsUpper c).map fun w =>
          Production.mk ("P_" ++ Text.upper w) [.terminal w]).eraseDups
      else [] := by
  by_cases hlen : 1 < l.children.length
  · rw [homogenize_of_one_lt hlen, if_pos hlen, filterMap_word?_ofListingToken,
      ← eraseDups_map_of_injective preterminalRule_injective]
    rfl
  · rw [homogenize_of_le_one (Nat.not_lt.1 hlen), if_neg hlen]

/-- The own rule of every line is homogeneous, with no child as well. -/
theorem homogeneous_main (l : Line) : l.homogenize.main.Homogeneous := by
  by_cases h : l.children = []
  · refine .inl fun s hs => ?_
    simp [homogenize_main_eq, h] at hs
  · exact (main_homogeneous h).2

/-- A symbol that is a word, or whose name starts with a capital letter, is read back from its
text in a rule file as a word exactly when it is one. -/
theorem isTerminal_ofRuleToken_text {s : Symbol} (h : s.isTerminal = false → Symbol.StartsUpper s.name) :
    (Symbol.ofRuleToken s.text).isTerminal = s.isTerminal := by
  have hkey : ∀ n, Symbol.StartsUpper n → (Symbol.ofRuleToken n).isTerminal = false := fun n hn =>
    congrArg Prod.fst (Symbol.key_ofRuleToken_of_startsUpper hn)
  cases s with
  | terminal w => simp [Symbol.ofRuleToken, Symbol.text]
  | nonterminal n => exact hkey n (h rfl)
  | preterminal n => exact hkey n (h rfl)

/-- Every symbol of the own rule that is not a word is named by a capital letter: a child that
starts with one, or a preterminal `P_…`. -/
theorem startsUpper_of_mem_main {s : Symbol} (hs : s ∈ l.homogenize.main.rhs)
    (ht : s.isTerminal = false) : Symbol.StartsUpper s.name := by
  rw [homogenize_main_eq] at hs
  obtain ⟨c, -, rfl⟩ := List.mem_map.1 hs
  split_ifs at ht ⊢ with hup hone
  · exact hup
  · simp at ht
  · exact ⟨'P', '_' :: (Text.upper c).toList, by simp [Symbol.name], by decide⟩

/-- The rules of every listing line, say of `n` children. The own rule keeps the tag and has one
symbol per child, in order: a child that starts with an ASCII capital letter is that
non-terminal; any other child is the word itself when it is the only child, and otherwise the
preterminal `P_` followed by its upper case. Below two children there is no preterminal rule;
from two on, the rule `P_W->[_w]` of each word child `w` is listed once, in order of first
occurrence, so that words differing in case give two rules of one tag. Hence the own rule is
homogeneous, each preterminal it names is the tag of a listed rule, and each of its symbols,
written in a rule file and read back as a token, is a word exactly when it was one. -/
theorem homogenize_symbols_and_rules (l : Line) :
    let n : Nat := l.children.length
    l.homogenize.main = ⟨l.tag, l.children.map fun c =>
      if Symbol.StartsUpper c then .nonterminal c
      else if n = 1 then .terminal c else .preterminal ("P_" ++ Text.upper c)⟩ ∧
    l.homogenize.preterminals =
      (if 1 < n then
        ((l.children.filter fun c => ¬ Symbol.StartsUpper c).map fun w =>
          Production.mk ("P_" ++ Text.upper w) [.terminal w]).eraseDups
      else []) ∧
    l.homogenize.main.Homogeneous ∧
    (∀ m, Symbol.preterminal m ∈ l.homogenize.main.rhs →
      ∃ p ∈ l.homogenize.preterminals, p.lhs = m) ∧
    l.homogenize.main.rhs.map (fun s => (Symbol.ofRuleToken s.text).isTerminal) =
      l.homogenize.main.rhs.map Symbol.isTerminal :=
  ⟨homogenize_main_eq l, homogenize_preterminals_eq l, homogeneous_main l,
    fun _ hm => exists_preterminal_of_mem_main hm,
    List.map_congr_left fun _ hs => isTerminal_ofRuleToken_text (startsUpper_of_mem_main hs)⟩

/-- A word named twice gives its preterminal rule once; a word of another case gives a second
rule of the same preterminal. -/
example : (Line.homogenize ⟨.plain, "NP", ["DT", "dog", "dog", "dOG"]⟩) =
    { main := ⟨"NP", [.nonterminal "DT", .preterminal "P_DOG", .preterminal "P_DOG",
        .preterminal "P_DOG"]⟩
      preterminals := [⟨"P_DOG", [.terminal "dog"]⟩, ⟨"P_DOG", [.terminal "dOG"]⟩] } := by
  decide

end Listing

end Pcfg
