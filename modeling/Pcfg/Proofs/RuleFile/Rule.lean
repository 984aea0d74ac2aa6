import Mathlib
import Pcfg.RuleFile.Rule
import Pcfg.Proofs.Text.Words
/-!
# Reading a written rule back

A rule is written as `TAG->[RHS] : P`, and the reader splits the line at the first `->[` and
then at the first `] : `. Both separators are found where the writer put them when the tag holds
no `->[` and the symbols are those of a grammar listing (`Symbol.Listed`): a name without
blanks, and a non-terminal name that starts with a capital letter. Neither separator overlaps
itself, so a match can only start inside the tag if the tag holds one
(`RuleFile.splitFirst?_open`), and a match of `] : ` inside the right-hand side would need a
symbol written `:` (`RuleFile.splitFirst?_close`). The right-hand side then reads back as
symbols of the same keys (`RuleFile.key_map_ofRuleToken_text`).

A tag that holds `->[` is cut there instead, and the rule is never read back with that tag
(`RuleFile.lhs_ne_of_open_infix`).

Main statements: `RuleFile.ofLine?_rule`, `RuleFile.lhs_ne_of_open_infix`.
-/

namespace Pcfg

open Text

/-! ### Symbols as a listing gives them -/

/-- A symbol as a grammar listing gives it: a name without blanks, and a name that starts with
an ASCII capital letter unless the symbol is a word. -/
structure Symbol.Listed (s : Symbol) : Prop where
  /-- The name has no blanks. -/
  blankless : Blankless s.name.toList
  /-- A non-terminal or preterminal name starts with a capital letter. -/
  startsUpper : s.isTerminal = false → StartsUpper s.name

namespace Symbol

/-- The text of a symbol as a listing gives it is a word that does not start with `:`. -/
theorem Listed.text {s : Symbol} (h : s.Listed) :
    ∃ c cs, s.text.toList = c :: cs ∧ c ≠ ':' ∧ Blankless (c :: cs) := by
  cases hs : s.isTerminal
  · obtain ⟨c, cs, hcs, hup⟩ := h.startsUpper hs
    refine ⟨c, cs, by simp [Symbol.text, hs, hcs], ?_, ?_⟩
    · rintro rfl
      exact absurd hup (by decide)
    · rw [← hcs]
      exact h.blankless
  · refine ⟨'_', s.name.toList, by simp [Symbol.text, hs], by decide, ?_⟩
    exact blankless_cons.2 ⟨by decide, h.blankless⟩

/-- A name that does not start with `_` is read as a rule file token that is no word and has that
name: a preterminal when it starts with `P_`, a non-terminal otherwise. -/
theorem key_ofRuleToken_of_head {n : String} (h : n.toList.head? ≠ some '_') :
    (ofRuleToken n).key = (false, n) := by
  unfold ofRuleToken
  split
  · rename_i w hw
    simp [hw] at h
  · rfl
  · rfl

/-- A name that starts with a capital letter does not start with `_`. -/
theorem head?_ne_of_startsUpper {n : String} (h : StartsUpper n) : n.toList.head? ≠ some '_' := by
  obtain ⟨c, cs, hcs, hup⟩ := h
  rw [hcs, List.head?_cons, ne_eq, Option.some.injEq]
  rintro rfl
  exact absurd hup (by decide)

/-- A name that starts with a capital letter is read as a rule file token that is no word and
has that name. -/
theorem key_ofRuleToken_of_startsUpper {n : String} (h : StartsUpper n) :
    (ofRuleToken n).key = (false, n) :=
  key_ofRuleToken_of_head (head?_ne_of_startsUpper h)

/-- A symbol whose name, unless it is a word, does not start with `_` is read back from its text
as a symbol of the same key. -/
theorem key_ofRuleToken_text_of_head {s : Symbol}
    (h : s.isTerminal = false → s.name.toList.head? ≠ some '_') :
    (ofRuleToken s.text).key = s.key := by
  cases s with
  | terminal w => simp [ofRuleToken, Symbol.text, key, Symbol.name, Symbol.isTerminal]
  | nonterminal n => exact key_ofRuleToken_of_head (h rfl)
  | preterminal n => exact key_ofRuleToken_of_head (h rfl)

end Symbol

/-- Symbols whose names, unless they are words, do not start with `_` are read back from their
texts as symbols of the same keys. -/
theorem Rhs.key_map_ofRuleToken_text {r : Rhs}
    (h : ∀ s ∈ r, s.isTerminal = false → s.name.toList.head? ≠ some '_') :
    Rhs.key (r.map fun s => Symbol.ofRuleToken s.text) = r.key := by
  simp only [Rhs.key, List.map_map]
  exact List.map_congr_left fun s hs => Symbol.key_ofRuleToken_text_of_head (h s hs)

theorem Production.homogeneous_of_key_eq {l l' : String} {r r' : Rhs} (hk : r.key = r'.key)
    (h : (Production.mk l r).Homogeneous) : (Production.mk l' r').Homogeneous := by
  have hmap : r.map Symbol.isTerminal = r'.map Symbol.isTerminal := by
    have := congrArg (List.map Prod.fst) hk
    simpa [Rhs.key, List.map_map, Function.comp_def, Symbol.key] using this
  have hlen : r.length = r'.length := by simpa using congrArg List.length hmap
  have hiff : ∀ b, (∀ s ∈ r, s.isTerminal = b) ↔ ∀ s ∈ r', s.isTerminal = b := by
    intro b
    have hr := List.forall_mem_map (f := Symbol.isTerminal) (l := r) (P := fun x => x = b)
    have hr' := List.forall_mem_map (f := Symbol.isTerminal) (l := r') (P := fun x => x = b)
    rw [← hr, ← hr', hmap]
  rcases h with h | ⟨h1, h2⟩
  · exact .inl ((hiff false).1 h)
  · refine .inr ⟨?_, (hiff true).1 h2⟩
    show r'.length = 1
    rw [← hlen]
    exact h1

namespace RuleFile

variable {sep u v x y : List Char}

/-! ### Splitting at the first match -/

theorem splitFirst?_sep_append (hsep : sep ≠ []) (v : List Char) :
    splitFirst? sep (sep ++ v) = some ([], v) := by
  obtain ⟨c, cs, rfl⟩ := List.exists_cons_of_ne_nil hsep
  simp [splitFirst?, List.isPrefixOf_iff_prefix]

/-- When no match starts inside `u`, the split is found after it. -/
theorem splitFirst?_append_of_forall
    (h : ∀ i < u.length, sep.isPrefixOf ((u ++ v).drop i) = false) :
    splitFirst? sep (u ++ v) = (splitFirst? sep v).map fun p => (u ++ p.1, p.2) := by
  induction u with
  | nil => simp
  | cons c u ih =>
      have h0 : sep.isPrefixOf (c :: (u ++ v)) = false := by simpa using h 0 (by simp)
      have hrest : ∀ i < u.length, sep.isPrefixOf ((u ++ v).drop i) = false :=
        fun i hi => by simpa using h (i + 1) (by simp; omega)
      rw [List.cons_append, splitFirst?, if_neg (by simp [h0]), ih hrest, Option.map_map]
      rfl

theorem splitFirst?_append_sep_append (hsep : sep ≠ [])
    (h : ∀ i < u.length, sep.isPrefixOf ((u ++ sep ++ v).drop i) = false) :
    splitFirst? sep (u ++ sep ++ v) = some (u, v) := by
  rw [List.append_assoc] at h ⊢
  rw [splitFirst?_append_of_forall h, splitFirst?_sep_append hsep]
  simp

/-- A separator none of whose proper suffixes starts it does not overlap itself: a match that
starts inside a nonempty text and runs into a match right after it lies in that text. -/
theorem prefix_of_isPrefixOf_of_no_overlap
    (hsep : ∀ i < sep.length, 0 < i → ¬ sep.drop i <+: sep) (hx : x ≠ [])
    (h : sep.isPrefixOf (x ++ sep ++ y) = true) : sep <+: x := by
  rw [List.isPrefixOf_iff_prefix] at h
  by_cases hlen : sep.length ≤ x.length
  · -- the match lies within `x`
    exact List.prefix_of_prefix_length_le h (by rw [List.append_assoc]; exact List.prefix_append x _)
      hlen
  · -- otherwise `x` starts the match, and the rest of the separator would start another one
    have hxs : x <+: sep :=
      List.prefix_of_prefix_length_le (by rw [List.append_assoc]; exact List.prefix_append x _) h
        (by omega)
    obtain ⟨t, ht⟩ := h
    have hsplit : sep = x ++ sep.drop x.length := by
      obtain ⟨u, rfl⟩ := hxs
      simp
    have hrest : sep.drop x.length ++ t = sep ++ y := by
      have hx' : x ++ (sep.drop x.length ++ t) = x ++ (sep ++ y) := by
        rw [← List.append_assoc, ← hsplit, ht, List.append_assoc]
      exact List.append_cancel_left hx'
    exact absurd (List.prefix_of_prefix_length_le ⟨t, hrest⟩ (List.prefix_append sep y) (by simp))
      (hsep x.length (by omega) (List.length_pos_of_ne_nil hx))

/-- A separator that does not overlap itself is found right after a text that does not hold it. -/
theorem splitFirst?_of_not_infix {t : List Char} (hsep : sep ≠ [])
    (hover : ∀ i < sep.length, 0 < i → ¬ sep.drop i <+: sep)
    (ht : ¬ sep <:+: t) (v : List Char) :
    splitFirst? sep (t ++ sep ++ v) = some (t, v) := by
  apply splitFirst?_append_sep_append hsep
  intro i hi
  rw [Bool.eq_false_iff]
  intro hpre
  rw [List.append_assoc, List.drop_append_of_le_length hi.le, ← List.append_assoc] at hpre
  have hne : t.drop i ≠ [] := by simpa using hi
  -- a match starting at `i` would lie inside the text
  exact ht ((prefix_of_isPrefixOf_of_no_overlap hover hne hpre).isInfix.trans
    (List.drop_suffix i t).isInfix)

/-! ### The two separators of a rule -/

/-- The line is split at the `->[` after the tag when the tag holds none. -/
theorem splitFirst?_open {t : List Char} (ht : ¬ "->[".toList <:+: t) (v : List Char) :
    splitFirst? "->[".toList (t ++ "->[".toList ++ v) = some (t, v) :=
  splitFirst?_of_not_infix (by decide) (by decide) ht v

/-- A match of `] : ` that starts inside a word without blanks starts at its last character,
a `]`, and goes on with ` : `. -/
theorem close_of_isPrefixOf (hx : x ≠ []) (hb : Blankless x)
    (h : "] : ".toList.isPrefixOf (x ++ y) = true) :
    x = [']'] ∧ " : ".toList.isPrefixOf y = true := by
  have hclose : "] : ".toList = [']', ' ', ':', ' '] := rfl
  have hrest : " : ".toList = [' ', ':', ' '] := rfl
  rw [hclose] at h
  rw [hrest]
  match x, hx with
  | [a], _ =>
      simp only [List.cons_append, List.nil_append, List.isPrefixOf_cons_cons, Bool.and_eq_true,
        beq_iff_eq] at h
      obtain ⟨rfl, h⟩ := h
      exact ⟨rfl, h⟩
  | a :: b :: x', _ =>
      simp only [List.cons_append, List.isPrefixOf_cons_cons, Bool.and_eq_true, beq_iff_eq] at h
      obtain ⟨-, rfl, -⟩ := h
      exact absurd (hb ' ' (by simp)) (by decide)

/-- Words that do not start with `:`, joined by spaces and followed by `] : `, are split
there. -/
theorem splitFirst?_close {ts : List (List Char)}
    (h : ∀ t ∈ ts, ∃ c cs, t = c :: cs ∧ c ≠ ':' ∧ Blankless (c :: cs)) (p : List Char) :
    splitFirst? "] : ".toList ([' '].intercalate ts ++ "] : ".toList ++ p) =
      some ([' '].intercalate ts, p) := by
  have hclose : "] : ".toList = [']', ' ', ':', ' '] := rfl
  have hrest : " : ".toList = [' ', ':', ' '] := rfl
  induction ts with
  | nil =>
      rw [List.intercalate_nil, List.nil_append]
      exact splitFirst?_sep_append (by decide) p
  | cons t ts ih =>
      obtain ⟨c, cs, rfl, hc, hb⟩ := h t (by simp)
      -- a match inside the word needs the word to end with `]` and the rest to start with ` :`
      have hword : ∀ i < (c :: cs).length, ∀ z : List Char,
          "] : ".toList.isPrefixOf ((c :: cs).drop i ++ z) = true →
            " : ".toList.isPrefixOf z = true := by
        intro i hi z hz
        have hdne : (c :: cs).drop i ≠ [] := by simpa using hi
        have hdb : Blankless ((c :: cs).drop i) := fun d hd => hb d (List.mem_of_mem_drop hd)
        exact (close_of_isPrefixOf hdne hdb hz).2
      cases ts with
      | nil =>
          apply splitFirst?_append_sep_append (by decide)
          intro i hi
          rw [Bool.eq_false_iff]
          intro hpre
          rw [List.intercalate_singleton] at hi
          simp only [List.intercalate_singleton, List.append_assoc] at hpre
          rw [List.drop_append_of_le_length hi.le] at hpre
          have hz := hword i hi _ hpre
          rw [hclose, hrest] at hz
          simp at hz
      | cons t' ts' =>
          obtain ⟨c', cs', rfl, hc', -⟩ := h t' (by simp)
          have hfor : ∀ i < ((c :: cs) ++ [' ']).length, "] : ".toList.isPrefixOf
              (((c :: cs) ++ [' '] ++ ([' '].intercalate ((c' :: cs') :: ts') ++
                "] : ".toList ++ p)).drop i) = false := by
            intro i hi
            rw [Bool.eq_false_iff]
            intro hpre
            by_cases hit : i < (c :: cs).length
            · rw [List.append_assoc, List.drop_append_of_le_length hit.le] at hpre
              have hz := hword i hit _ hpre
              rw [hrest] at hz
              simp only [List.intercalate_cons_cons_left, List.cons_append, List.nil_append,
                List.isPrefixOf_cons_cons, Bool.and_eq_true, beq_iff_eq] at hz
              obtain ⟨-, hcolon, -⟩ := hz
              exact hc' hcolon.symm
            · -- the match would start at the space between two words
              have hi' : i = (c :: cs).length := by simp at hi hit ⊢; omega
              rw [hi', List.append_assoc, List.drop_left, hclose] at hpre
              simp at hpre
          rw [List.intercalate_cons_cons]
          have hassoc : (c :: cs) ++ [' '] ++ [' '].intercalate ((c' :: cs') :: ts') ++
              "] : ".toList ++ p = ((c :: cs) ++ [' ']) ++ ([' '].intercalate ((c' :: cs') :: ts') ++
              "] : ".toList ++ p) := by simp
          rw [hassoc, splitFirst?_append_of_forall hfor, ih fun t ht => h t (List.mem_cons_of_mem _ ht)]
          rfl

/-! ### One rule -/

/-- A probability that is read has a text of number characters, none of them a blank. -/
theorem numberLike_of_readProb {p : String} {prob : Binary64} (hp : readProb p = .ok prob) :
    Listing.NumberLike p := by
  unfold readProb at hp
  split_ifs at hp with h
  · exact h

/-- A number character is not a blank. -/
theorem isBlank_of_numberChar {c : Char} (h : Listing.numberChar c = true) : isBlank c = false := by
  rw [Bool.eq_false_iff]
  intro hb
  obtain ⟨b, hb, hlo, hhi⟩ := (Ranges.contains_iff _ _).1 hb
  simp only [Listing.numberChar, Bool.or_eq_true, decide_eq_true_eq] at h
  have h0 : '0'.toNat = 48 := rfl
  have h9 : '9'.toNat = 57 := rfl
  simp only [blankRanges, List.mem_cons, List.not_mem_nil, or_false] at hb
  rcases h with ((((hd | rfl) | rfl) | rfl) | rfl) | rfl
  · -- a digit lies between `0` and `9`, away from every blank
    have hd := Char.isDigit_iff_toNat.1 hd
    rcases hb with rfl | rfl | rfl | rfl | rfl | rfl | rfl | rfl | rfl | rfl <;> simp at hlo hhi <;>
      omega
  all_goals
    rcases hb with rfl | rfl | rfl | rfl | rfl | rfl | rfl | rfl | rfl | rfl

/-- The right-hand side read back from the text of symbols as a listing gives them. -/
theorem words_text {r : Rhs} (hsym : ∀ s ∈ r, s.Listed) :
    Text.words r.text = r.map Symbol.text := by
  apply words_intercalate
  intro w hw
  obtain ⟨s, hs, rfl⟩ := List.mem_map.1 hw
  obtain ⟨c, cs, hcs, -, hb⟩ := (hsym s hs).text
  rw [hcs]
  exact ⟨by simp, hb⟩

theorem key_map_ofRuleToken_text {r : Rhs} (hsym : ∀ s ∈ r, s.Listed) :
    Rhs.key (r.map fun s => Symbol.ofRuleToken s.text) = r.key :=
  Rhs.key_map_ofRuleToken_text fun s hs hst =>
    Symbol.head?_ne_of_startsUpper ((hsym s hs).startsUpper hst)

theorem toList_text (r : Rhs) : r.text.toList = [' '].intercalate (r.map fun s => s.text.toList) := by
  simp [Rhs.text, String.toList_intercalate, List.map_map, Function.comp_def]

/-- A rule line whose tag does not start with a blank and whose probability is read is its own
trimmed form. -/
theorem trimChars_rule_of_head {tag rest p : String} {prob : Binary64}
    (htag : ∃ c cs, tag.toList = c :: cs ∧ isBlank c = false) (hp : readProb p = .ok prob) :
    trimChars (tag ++ "->[" ++ rest ++ "] : " ++ p).toList =
      (tag ++ "->[" ++ rest ++ "] : " ++ p).toList := by
  obtain ⟨hpne, hpnum⟩ := numberLike_of_readProb hp
  obtain ⟨c, cs, hcs, hc⟩ := htag
  apply trimChars_eq_self
  · simp only [String.toList_append, hcs, List.cons_append, List.head?_cons, Option.mem_def,
      Option.some.injEq]
    rintro _ rfl
    exact hc
  · intro c hc
    rw [String.toList_append, List.getLast?_append_of_ne_nil _ (by simpa using hpne)] at hc
    exact isBlank_of_numberChar (hpnum c (List.mem_of_getLast? hc))

/-- A rule line that starts with a tag without blanks and ends with a probability that is read is
its own trimmed form. -/
theorem trimChars_rule {tag rest p : String} {prob : Binary64}
    (htag : tag.toList ≠ [] ∧ Blankless tag.toList) (hp : readProb p = .ok prob) :
    trimChars (tag ++ "->[" ++ rest ++ "] : " ++ p).toList =
      (tag ++ "->[" ++ rest ++ "] : " ++ p).toList := by
  obtain ⟨c, cs, hcs⟩ := List.exists_cons_of_ne_nil htag.1
  exact trimChars_rule_of_head ⟨c, cs, hcs, htag.2 c (by simp [hcs])⟩ hp

/-- A rule written with a tag that holds no `->[`, and a nonempty homogeneous right-hand side of
symbols as a listing gives them, is read back with its tag, the symbols its texts stand for, and
the probability its text reads as. -/
theorem ofLine?_rule {tag : String} {r : Rhs} {p : String} {prob : Binary64}
    (htag : tag.toList ≠ [] ∧ Blankless tag.toList) (hopen : ¬ "->[".toList <:+: tag.toList)
    (hr : r ≠ []) (hhom : (Production.mk tag r).Homogeneous) (hsym : ∀ s ∈ r, s.Listed)
    (hp : readProb p = .ok prob) :
    Rule.ofLine? (tag ++ "->[" ++ r.text ++ "] : " ++ p) =
      .ok ⟨⟨tag, r.map fun s => Symbol.ofRuleToken s.text⟩, prob⟩ := by
  have hclose : splitFirst? "] : ".toList (r.text.toList ++ "] : ".toList ++ p.toList) =
      some (r.text.toList, p.toList) := by
    rw [toList_text]
    apply splitFirst?_close
    intro t ht
    obtain ⟨s, hs, rfl⟩ := List.mem_map.1 ht
    obtain ⟨c, cs, hcs, hc, hb⟩ := (hsym s hs).text
    exact ⟨c, cs, hcs, hc, hb⟩
  have hhom' : (Production.mk tag (r.map fun s => Symbol.ofRuleToken s.text)).Homogeneous :=
    Production.homogeneous_of_key_eq (key_map_ofRuleToken_text hsym).symm hhom
  have hne : r.map (fun s => Symbol.ofRuleToken s.text) ≠ [] := by simpa using hr
  have hline : (tag ++ "->[" ++ r.text ++ "] : " ++ p).toList =
      tag.toList ++ "->[".toList ++ (r.text.toList ++ "] : ".toList ++ p.toList) := by
    simp only [String.toList_append, List.append_assoc]
  rw [Rule.ofLine?, trimChars_rule htag hp, hline, splitFirst?_open hopen]
  simp only [hclose, htag.1, if_false, String.ofList_toList, hp, words_text hsym, List.map_map,
    Function.comp_def]
  rw [if_neg hne, if_pos hhom']

/-! ### A tag that holds the separator -/

/-- The split is found no later than any place where the separator occurs. -/
theorem length_le_of_splitFirst? {l w : List Char} (h : splitFirst? sep l = some (u, w)) {i : Nat}
    (hi : sep.isPrefixOf (l.drop i) = true) : u.length ≤ i := by
  induction l generalizing u i with
  | nil => simp [splitFirst?] at h
  | cons c cs ih =>
      unfold splitFirst? at h
      split_ifs at h with hc
      · obtain ⟨rfl, -⟩ := Prod.mk.inj (Option.some.inj h)
        exact Nat.zero_le i
      · obtain ⟨⟨a, b⟩, hab, hu⟩ := Option.map_eq_some_iff.1 h
        obtain ⟨rfl, rfl⟩ := Prod.mk.inj hu
        cases i with
        | zero => exact absurd hi (by simpa using hc)
        | succ j => simpa using ih hab (i := j) (by simpa using hi)

/-- The tag of a rule that is read is the text before the first `->[` of the trimmed line. -/
theorem ofLine?_lhs {line : String} {R : Rule} (h : Rule.ofLine? line = .ok R) :
    ∃ rest, splitFirst? "->[".toList (trimChars line.toList) =
      some (R.production.lhs.toList, rest) := by
  unfold Rule.ofLine? at h
  split at h
  · cases h
  · rename_i tag rest hsplit
    refine ⟨rest, ?_⟩
    split at h
    · cases h
    · split_ifs at h
      split at h
      · cases h
      · dsimp only at h
        split_ifs at h
        cases h
        simpa using hsplit

/-- A rule written with a tag that holds `->[` is never read back with that tag: the line is split
inside the tag. -/
theorem lhs_ne_of_open_infix {tag rest p : String} {prob : Binary64} {R : Rule}
    (htag : tag.toList ≠ [] ∧ Blankless tag.toList) (hopen : "->[".toList <:+: tag.toList)
    (hp : readProb p = .ok prob) (h : Rule.ofLine? (tag ++ "->[" ++ rest ++ "] : " ++ p) = .ok R) :
    R.production.lhs ≠ tag := by
  obtain ⟨w, hw⟩ := ofLine?_lhs h
  rw [trimChars_rule htag hp] at hw
  obtain ⟨a, b, hab⟩ := hopen
  -- the separator occurs at the length of `a`, inside the tag
  have hat : "->[".toList.isPrefixOf
      ((tag ++ "->[" ++ rest ++ "] : " ++ p).toList.drop a.length) = true := by
    simp only [String.toList_append, List.append_assoc, ← hab, List.drop_left']
    simp
  have hlen := length_le_of_splitFirst? hw hat
  intro heq
  rw [heq, ← hab] at hlen
  simp at hlen

end RuleFile

end Pcfg
