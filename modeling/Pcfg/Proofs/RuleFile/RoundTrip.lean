import Mathlib
import Pcfg.Proofs.Conversion.Shape
import Pcfg.Proofs.Decimal.SixPlaces
import Pcfg.Proofs.RuleFile.Read
import Pcfg.Proofs.Text.Lines
import Pcfg.RuleFile.Read
/-!
# Reading back the rule file of an accepted listing

The rule file of a grammar lists its rules in order (`Grammar.writtenRules`), one line each
(`Grammar.ruleText`). For the grammar of an accepted listing every line holds no line feed and
ends with a digit (`Grammar.ruleText_breakless`), so the file is cut into exactly these lines,
none of them blank. A line is then read with the entry's tag, symbols of the same keys and the
value of the written share, as long as the tag holds no `->[` (`RuleFile.ofLine?_rule`); a tag
that holds one is cut there (`RuleFile.lhs_ne_of_open_infix`). Since the tags are in increasing
order, the rules of a tag form one block, and the check forms one total per entry, in order,
each the sum of `n` equal shares (`RuleFile.foldl_addToTotal_entries`).

For a grammar of shaped entries in tag order this gives both halves:
`Grammar.readsBack_of_no_open` and `Grammar.not_readsBack_of_open`.

Main statement: `Conversion.readsBack_iff_no_open_in_tags`.
-/

namespace Pcfg

open Text

/-- Two relations that both hold along the same two lists hold together at each element of the
first. -/
theorem exists_of_forall₂_of_forall₂ {α β : Type} {P Q : α → β → Prop} {xs : List α} {ys : List β}
    (hP : List.Forall₂ P xs ys) (hQ : List.Forall₂ Q xs ys) {x : α} (hx : x ∈ xs) :
    ∃ y, P x y ∧ Q x y := by
  induction hP with
  | nil => simp at hx
  | @cons a b xs ys hab _ ih =>
      obtain ⟨hqab, hQ⟩ := List.forall₂_cons.1 hQ
      rcases List.mem_cons.1 hx with rfl | hx
      · exact ⟨b, hab, hqab⟩
      · exact ih hQ hx

theorem mem_intercalate {sep : List Char} {ts : List (List Char)} {c : Char}
    (hc : c ∈ sep.intercalate ts) : c ∈ sep ∨ ∃ t ∈ ts, c ∈ t := by
  induction ts with
  | nil => simp at hc
  | cons t ts ih =>
      cases ts with
      | nil => exact .inr ⟨t, by simp, by simpa using hc⟩
      | cons t' ts' =>
          rw [List.intercalate_cons_cons] at hc
          simp only [List.mem_append] at hc
          rcases hc with (hc | hc) | hc
          · exact .inr ⟨t, by simp, hc⟩
          · exact .inl hc
          · rcases ih hc with h | ⟨u, hu, hcu⟩
            · exact .inl h
            · exact .inr ⟨u, List.mem_cons_of_mem _ hu, hcu⟩

/-! ### The lines of a rule file -/

namespace Grammar

/-- The rules of a grammar in the order its rule file lists them: each entry, in order, with
each of its expansions. -/
def writtenRules (g : Grammar) : List (Entry × Rhs) :=
  g.entries.flatMap fun e => e.expansions.map fun r => (e, r)

/-- The rule file line of an expansion of an entry, without its line feed. -/
def ruleText (e : Entry) (r : Rhs) : String :=
  e.tag ++ "->[" ++ r.text ++ "] : " ++ (uniformShare e.expansions.length).toSixPlaces

/-- The read-back of a grammar's rule file is as the grammar has its rules: the file is read as
one rule for each written rule, in order, with the entry's tag, a right-hand side of the same
keys and the value of the written share; and the totals that the check forms are one per entry,
in order, each the sum from `+0` of the entry's `n` equal shares. -/
def ReadsBack (g : Grammar) : Prop :=
  ∃ rules, RuleFile.read g.toRuleFile.toUTF8 = .ok rules ∧ rules.length = g.ruleCount ∧
    List.Forall₂ (fun R x => R.production.lhs = x.1.tag ∧ R.production.rhs.key = x.2.key ∧
        Binary64.ofString? (uniformShare x.1.expansions.length).toSixPlaces = some R.prob)
      rules g.writtenRules ∧
    List.Forall₂ (fun t e => t.1 = e.tag ∧ ∃ p,
        Binary64.ofString? (uniformShare e.expansions.length).toSixPlaces = some p ∧
        t.2 = (List.replicate e.expansions.length p).foldl (· + ·) (Binary64.zero false))
      (RuleFile.totals rules) g.entries

theorem mem_writtenRules {g : Grammar} {e : Entry} {r : Rhs} :
    (e, r) ∈ g.writtenRules ↔ e ∈ g.entries ∧ r ∈ e.expansions := by
  simp [writtenRules]

theorem length_writtenRules (g : Grammar) : g.writtenRules.length = g.ruleCount := by
  obtain ⟨es⟩ := g
  simp only [writtenRules, ruleCount]
  induction es with
  | nil => rfl
  | cons e es ih => simp [ih]

theorem toRuleFile_eq_join (g : Grammar) :
    g.toRuleFile =
      String.join ((g.writtenRules.map fun x => ruleText x.1 x.2).map (· ++ "\n")) := by
  simp only [toRuleFile, ruleLines, writtenRules, List.map_flatMap, List.map_map]
  rfl

/-- Symbols as a listing gives them, written one after another, hold no line feed. -/
theorem newline_not_mem_text {r : Rhs} (hsym : ∀ s ∈ r, s.Listed) : '\n' ∉ r.text.toList := by
  rw [RuleFile.toList_text]
  intro hmem
  rcases mem_intercalate hmem with h | ⟨t, ht, hc⟩
  · exact absurd h (by decide)
  · obtain ⟨s, hs, rfl⟩ := List.mem_map.1 ht
    obtain ⟨c, cs, hcs, -, hb⟩ := (hsym s hs).text
    rw [hcs] at hc
    exact absurd (hb _ hc) (by decide)

variable {e : Entry} {r : Rhs}

/-- The share of a shaped entry is written as a probability that reads back. -/
theorem Entry.Listed.readProb_share (he : e.Listed) :
    ∃ p, RuleFile.readProb (uniformShare e.expansions.length).toSixPlaces = .ok p ∧
      Binary64.ofString? (uniformShare e.expansions.length).toSixPlaces = some p :=
  readProb_uniformShare (List.length_pos_of_ne_nil he.nonempty).ne'

/-- The line of an expansion of a shaped entry holds no line feed and does not end with a
carriage return: it ends with the last digit of the share. -/
theorem ruleText_breakless (he : e.Listed) (hr : r ∈ e.expansions) :
    '\n' ∉ (ruleText e r).toList ∧ (ruleText e r).toList.getLast? ≠ some '\r' := by
  obtain ⟨p, hp, -⟩ := he.readProb_share
  obtain ⟨hpne, hpnum⟩ := RuleFile.numberLike_of_readProb hp
  have hrule := he.rules r hr
  constructor
  · simp only [ruleText, String.toList_append, List.mem_append]
    rintro ((((htag | hopen) | htext) | hclose) | hprob)
    · exact absurd (hrule.tag.2 _ htag) (by decide)
    · exact absurd hopen (by decide)
    · exact newline_not_mem_text hrule.symbols htext
    · exact absurd hclose (by decide)
    · exact absurd (hpnum _ hprob) (by decide)
  · intro hlast
    rw [ruleText, String.toList_append, List.getLast?_append_of_ne_nil _ (by simpa using hpne)]
      at hlast
    exact absurd (hpnum _ (List.mem_of_getLast? hlast)) (by decide)

/-- The line of an expansion of a shaped entry is not blank. -/
theorem trimChars_ruleText_ne_nil (he : e.Listed) (hr : r ∈ e.expansions) :
    trimChars (ruleText e r).toList ≠ [] := by
  obtain ⟨p, hp, -⟩ := he.readProb_share
  rw [ruleText, RuleFile.trimChars_rule (he.rules r hr).tag hp]
  simp [(he.rules r hr).tag.1]

/-- The line of an expansion of a shaped entry whose tag holds no `->[` is read back with the
tag, the symbols the texts stand for and the value of the share. -/
theorem ofLine?_ruleText (he : e.Listed) (hopen : ¬ "->[".toList <:+: e.tag.toList)
    (hr : r ∈ e.expansions) {p : Binary64}
    (hp : RuleFile.readProb (uniformShare e.expansions.length).toSixPlaces = .ok p) :
    RuleFile.Rule.ofLine? (ruleText e r) =
      .ok ⟨⟨e.tag, r.map fun s => Symbol.ofRuleToken s.text⟩, p⟩ :=
  have hrule := he.rules r hr
  RuleFile.ofLine?_rule hrule.tag hopen hrule.rhs_ne_nil hrule.homogeneous hrule.symbols hp

end Grammar

/-! ### Reading lines and forming totals -/

namespace RuleFile

/-- Lines none of which is blank are read exactly when each of them is read as a rule, and give
those rules in order. -/
theorem readFrom_map_some_eq_ok {ls : List String} (hb : ∀ l ∈ ls, trimChars l.toList ≠ [])
    (n : Nat) {rules : List Rule} :
    readFrom n (ls.map some) = .ok rules ↔ List.Forall₂ (fun l R => Rule.ofLine? l = .ok R) ls rules := by
  -- no line is blank, so none is skipped
  have hfilter : (ls.filter fun l => ¬ Text.Blank l) = ls :=
    List.filter_eq_self.2 fun l hl => by simpa using mt Text.trimChars_eq_nil_iff_blank.2 (hb l hl)
  rw [readFrom_eq_ok_iff, hfilter]

theorem totals_eq_foldl (rules : List Rule) :
    totals rules =
      (rules.map fun R => (R.production.lhs, R.prob)).foldl (fun acc x => addToTotal acc x.1 x.2) [] := by
  simp [totals, List.foldl_map]

variable {acc : List (String × Binary64)} {t : String}

theorem addToTotal_of_not_mem (h : t ∉ acc.map Prod.fst) (p : Binary64) :
    addToTotal acc t p = acc ++ [(t, Binary64.zero false + p)] := by
  induction acc with
  | nil => rfl
  | cons a acc ih =>
      obtain ⟨t', s⟩ := a
      have hne : t' ≠ t := fun heq => h (by simp [heq])
      simp only [addToTotal, if_neg hne, List.cons_append]
      rw [ih (fun h' => h (List.mem_cons_of_mem _ h'))]

theorem addToTotal_append_of_not_mem (h : t ∉ acc.map Prod.fst) (s p : Binary64) :
    addToTotal (acc ++ [(t, s)]) t p = acc ++ [(t, s + p)] := by
  induction acc with
  | nil => simp [addToTotal]
  | cons a acc ih =>
      obtain ⟨t', s'⟩ := a
      have hne : t' ≠ t := fun heq => h (by simp [heq])
      simp only [List.cons_append, addToTotal, if_neg hne]
      rw [ih (fun h' => h (List.mem_cons_of_mem _ h'))]

/-- A block of `k + 1` probabilities of a tag that no total has yet adds one total at the end:
their sum from `+0`. -/
theorem foldl_addToTotal_replicate (h : t ∉ acc.map Prod.fst) (p : Binary64) (k : Nat) :
    (List.replicate (k + 1) (t, p)).foldl (fun acc x => addToTotal acc x.1 x.2) acc =
      acc ++ [(t, (List.replicate (k + 1) p).foldl (· + ·) (Binary64.zero false))] := by
  induction k with
  | zero => simp [addToTotal_of_not_mem h]
  | succ k ih =>
      rw [List.replicate_succ', List.foldl_append, ih, List.replicate_succ' (n := k + 1),
        List.foldl_append]
      simp [addToTotal_append_of_not_mem h]

/-- Blocks of the entries' probabilities, one block per entry with its `n ≥ 1` equal ones, of
distinct tags that no total has yet, add one total per entry, in order. -/
theorem foldl_addToTotal_entries {es : List Grammar.Entry} (v : Grammar.Entry → Binary64)
    (hnd : (es.map (·.tag)).Nodup) (hne : ∀ e ∈ es, e.expansions ≠ [])
    (hacc : ∀ e ∈ es, e.tag ∉ acc.map Prod.fst) :
    (es.flatMap fun e => List.replicate e.expansions.length (e.tag, v e)).foldl
        (fun acc x => addToTotal acc x.1 x.2) acc =
      acc ++ es.map fun e =>
        (e.tag, (List.replicate e.expansions.length (v e)).foldl (· + ·) (Binary64.zero false)) := by
  induction es generalizing acc with
  | nil => simp
  | cons e es ih =>
      obtain ⟨k, hk⟩ := Nat.exists_eq_add_one_of_ne_zero
        (List.length_pos_of_ne_nil (hne e (by simp))).ne'
      have hfirst := foldl_addToTotal_replicate (hacc e (by simp)) (v e) k
      rw [← hk] at hfirst
      have hnd' : e.tag ∉ es.map (·.tag) ∧ (es.map (·.tag)).Nodup := by
        simpa using hnd
      -- the later tags are neither in the totals so far nor the tag of this block
      have hacc' : ∀ e' ∈ es, e'.tag ∉ (acc ++ [(e.tag, (List.replicate e.expansions.length
          (v e)).foldl (· + ·) (Binary64.zero false))]).map Prod.fst := by
        intro e' he' hmem
        simp only [List.map_append, List.map_cons, List.map_nil, List.mem_append,
          List.mem_singleton] at hmem
        rcases hmem with hmem | heq
        · exact hacc e' (List.mem_cons_of_mem _ he') hmem
        · exact hnd'.1 (heq ▸ List.mem_map_of_mem he')
      rw [List.flatMap_cons, List.foldl_append, hfirst,
        ih hnd'.2 (fun e' he' => hne e' (List.mem_cons_of_mem _ he')) hacc']
      simp

end RuleFile

/-! ### Shaped grammars read back -/

namespace Grammar

variable {g : Grammar}

/-- The rule file of a grammar of shaped entries is cut into the lines of its written rules,
none of them blank: it is read exactly when each of them is read as a rule, in order. -/
theorem read_toRuleFile_eq_ok_iff (hlisted : ∀ e ∈ g.entries, e.Listed)
    (rules : List RuleFile.Rule) :
    RuleFile.read g.toRuleFile.toUTF8 = .ok rules ↔
      List.Forall₂ (fun x R => RuleFile.Rule.ofLine? (ruleText x.1 x.2) = .ok R)
        g.writtenRules rules := by
  rw [RuleFile.read, toRuleFile_eq_join, lines_join, RuleFile.readFrom_map_some_eq_ok,
    List.forall₂_map_left_iff]
  · intro l hl
    obtain ⟨⟨e, r⟩, hx, rfl⟩ := List.mem_map.1 hl
    obtain ⟨he, hr⟩ := mem_writtenRules.1 hx
    exact trimChars_ruleText_ne_nil (hlisted e he) hr
  · intro l hl
    obtain ⟨⟨e, r⟩, hx, rfl⟩ := List.mem_map.1 hl
    obtain ⟨he, hr⟩ := mem_writtenRules.1 hx
    exact ruleText_breakless (hlisted e he) hr

/-- A shaped grammar with a tag that holds `->[` does not read back: the rules of that tag are
read with the tag cut. -/
theorem not_readsBack_of_open (hlisted : ∀ e ∈ g.entries, e.Listed) {e : Entry}
    (he : e ∈ g.entries) (hopen : "->[".toList <:+: e.tag.toList) : ¬ g.ReadsBack := by
  rintro ⟨rules, hread, -, hrel, -⟩
  obtain ⟨r, hr⟩ := List.exists_mem_of_ne_nil _ (hlisted e he).nonempty
  -- the rule read from the line of `(e, r)` would have the tag `e.tag`
  obtain ⟨R, hR, hlhs, -⟩ := exists_of_forall₂_of_forall₂
    ((read_toRuleFile_eq_ok_iff hlisted rules).1 hread) hrel.flip (mem_writtenRules.2 ⟨he, hr⟩)
  obtain ⟨p, hp, -⟩ := (hlisted e he).readProb_share
  exact RuleFile.lhs_ne_of_open_infix ((hlisted e he).rules r hr).tag hopen hp hR hlhs

/-- A shaped grammar in tag order whose tags hold no `->[` reads back. -/
theorem readsBack_of_no_open (hsort : g.Sorted) (hlisted : ∀ e ∈ g.entries, e.Listed)
    (hopen : ∀ e ∈ g.entries, ¬ "->[".toList <:+: e.tag.toList) : g.ReadsBack := by
  -- every line reads back with the value of its share
  let v : Entry → Binary64 := fun e =>
    (Binary64.ofString? (uniformShare e.expansions.length).toSixPlaces).getD (.zero false)
  have hv : ∀ e ∈ g.entries,
      RuleFile.readProb (uniformShare e.expansions.length).toSixPlaces = .ok (v e) ∧
        Binary64.ofString? (uniformShare e.expansions.length).toSixPlaces = some (v e) := by
    intro e he
    obtain ⟨p, hp, hs⟩ := (hlisted e he).readProb_share
    simp [v, hp, hs]
  let rule : Entry × Rhs → RuleFile.Rule := fun x =>
    ⟨⟨x.1.tag, x.2.map fun s => Symbol.ofRuleToken s.text⟩, v x.1⟩
  -- the rules of a tag form one block of its share, and the tags are distinct
  have hpairs : (g.writtenRules.map rule).map (fun R => (R.production.lhs, R.prob)) =
      g.entries.flatMap fun e => List.replicate e.expansions.length (e.tag, v e) := by
    simp [writtenRules, rule, List.map_flatMap, Function.comp_def, List.map_const']
  have hnd : (g.entries.map (·.tag)).Nodup := hsort.imp ne_of_lt
  have hfresh : ∀ e ∈ g.entries, e.tag ∉ ([] : List (String × Binary64)).map Prod.fst := by
    simp
  have htotals := RuleFile.foldl_addToTotal_entries v hnd (fun e he => (hlisted e he).nonempty)
    hfresh
  refine ⟨g.writtenRules.map rule, ?_, by simp [length_writtenRules], ?_, ?_⟩
  · rw [read_toRuleFile_eq_ok_iff hlisted, List.forall₂_map_right_iff, List.forall₂_same]
    rintro ⟨e, r⟩ hx
    obtain ⟨he, hr⟩ := mem_writtenRules.1 hx
    exact ofLine?_ruleText (hlisted e he) (hopen e he) hr (hv e he).1
  · rw [List.forall₂_map_left_iff, List.forall₂_same]
    rintro ⟨e, r⟩ hx
    obtain ⟨he, hr⟩ := mem_writtenRules.1 hx
    exact ⟨rfl, RuleFile.key_map_ofRuleToken_text ((hlisted e he).rules r hr).symbols,
      (hv e he).2⟩
  · rw [RuleFile.totals_eq_foldl, hpairs, htotals, List.nil_append, List.forall₂_map_left_iff,
      List.forall₂_same]
    intro e he
    exact ⟨rfl, v e, (hv e he).2, rfl⟩

end Grammar

/-! ### Reading back the rule file of an accepted listing -/

namespace Conversion

/-- The rule file of an accepted listing reads back as its grammar has its rules (one rule per
written rule, in order, with its tag, keys and share, and one total per tag) exactly when no
tag holds `->[`. A tag that holds one is cut at it when the file is read. -/
theorem readsBack_iff_no_open_in_tags (bs : ByteArray) (c : Conversion) (hc : ofBytes bs = .ok c) :
    c.grammar.ReadsBack ↔ ∀ e ∈ c.grammar.entries, ¬ "->[".toList <:+: e.tag.toList := by
  -- the grammar of an accepted listing is in tag order and shaped as the listing wrote it
  obtain ⟨hsort, hlisted⟩ := listed_of_ofBytes hc
  constructor
  · intro hback e he hopen
    exact Grammar.not_readsBack_of_open hlisted he hopen hback
  · exact Grammar.readsBack_of_no_open hsort hlisted

/-- A listing of a rule of non-terminals and a rule of a word is accepted, and its rule file
reads back. -/
theorem readsBack_noun_phrase :
    ofBytes "S --> NP VP\nNP --> dog\n".toUTF8 =
        .ok ⟨⟨[⟨"NP", false, [[.terminal "dog"]]⟩,
          ⟨"S", false, [[.nonterminal "NP", .nonterminal "VP"]]⟩]⟩, 2⟩ ∧
      Grammar.ReadsBack ⟨[⟨"NP", false, [[.terminal "dog"]]⟩,
        ⟨"S", false, [[.nonterminal "NP", .nonterminal "VP"]]⟩]⟩ := by
  have hc : ofBytes "S --> NP VP\nNP --> dog\n".toUTF8 =
      .ok ⟨⟨[⟨"NP", false, [[.terminal "dog"]]⟩,
        ⟨"S", false, [[.nonterminal "NP", .nonterminal "VP"]]⟩]⟩, 2⟩ := by
    decide +kernel
  exact ⟨hc, (readsBack_iff_no_open_in_tags _ _ hc).2 (by decide)⟩

/-- Two tags that hold `->[` are accepted in a listing and written as they are, but their rules
are read back with the tags cut at `->[`, as two rules of one tag `A` whose probabilities sum to
two. -/
theorem read_toRuleFile_cuts_tag :
    (ofBytes "A->[B --> C\nA->[D --> E\n".toUTF8).map
        (fun c => (c.grammar.entries.map (·.tag), c.grammar.toRuleFile)) =
      .ok (["A->[B", "A->[D"], "A->[B->[C] : 1.000000e+00\nA->[D->[E] : 1.000000e+00\n") ∧
    (RuleFile.read "A->[B->[C] : 1.000000e+00\nA->[D->[E] : 1.000000e+00\n".toUTF8).map
        (·.map (·.production.lhs)) = .ok ["A", "A"] ∧
    (RuleFile.read "A->[B->[C] : 1.000000e+00\nA->[D->[E] : 1.000000e+00\n".toUTF8).bind
        RuleFile.check = .error (.invalidDistribution "A" (Binary64.one + Binary64.one)) := by
  refine ⟨?_, ?_, ?_⟩ <;> decide +kernel

end Conversion

end Pcfg
