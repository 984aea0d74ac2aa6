import Mathlib
import Pcfg.Text.Blank
import Pcfg.Text.UpperCase
/-!
# Words, trimming and upper case

What reading a rule file back relies on about blanks. The words of a text are the pieces between
its blanks, the empty ones dropped (`Text.words_eq_splitToList`), so they have no blanks
(`Text.blankless_of_mem_words`), and words joined by single spaces are read back as the same
words (`Text.words_intercalate`); a text has no words, and is empty once trimmed, exactly when
all its characters are blanks (`Text.words_eq_nil_iff`, `Text.trimChars_eq_nil_iff`); a text
that neither starts nor ends with a blank is its own trimmed form (`Text.trimChars_eq_self`);
and the upper case of a text without blanks has none (`Text.blankless_upper`), since no case
mapping of the Unicode data lands on a blank.
-/

namespace Pcfg

namespace Text

/-- No character of the list is a blank. -/
def Blankless (cs : List Char) : Prop := ∀ c ∈ cs, isBlank c = false

theorem blankless_iff_all (cs : List Char) : cs.all (!isBlank ·) = true ↔ Blankless cs := by
  simp [Blankless]

instance : DecidablePred Blankless := fun cs => decidable_of_iff _ (blankless_iff_all cs)

@[simp] theorem blankless_nil : Blankless [] := by simp [Blankless]

@[simp] theorem blankless_cons {c : Char} {cs : List Char} :
    Blankless (c :: cs) ↔ isBlank c = false ∧ Blankless cs := by
  simp [Blankless]

@[simp] theorem blankless_append {a b : List Char} :
    Blankless (a ++ b) ↔ Blankless a ∧ Blankless b := by
  simp [Blankless, or_imp, forall_and]

/-! ### Words -/

/-- Characters that are not blanks only extend the open word. -/
theorem wordsFrom_append_of_blankless {u : List Char} (hu : Blankless u) (rest w : List Char) :
    wordsFrom (u ++ rest) w = wordsFrom rest (u.reverse ++ w) := by
  induction u generalizing w with
  | nil => rfl
  | cons c u ih =>
      obtain ⟨hc, hu⟩ := blankless_cons.1 hu
      simp only [List.cons_append, wordsFrom, hc, Bool.false_eq_true, if_false]
      rw [ih hu]
      simp

/-- Words joined by single spaces are read back as the same words. -/
theorem wordsFrom_intercalate {ws : List (List Char)} (h : ∀ w ∈ ws, w ≠ [] ∧ Blankless w) :
    wordsFrom ([' '].intercalate ws) [] = ws := by
  induction ws with
  | nil => rfl
  | cons w ws ih =>
      obtain ⟨hne, hw⟩ := h w (by simp)
      have hrev : w.reverse ≠ [] := by simpa using hne
      cases ws with
      | nil =>
          -- the last word is closed by the end of the text
          rw [List.intercalate_singleton, ← List.append_nil w, wordsFrom_append_of_blankless hw]
          simp [wordsFrom, hrev]
      | cons w' ws =>
          -- the space after a word closes it
          rw [List.intercalate_cons_cons, List.append_assoc, wordsFrom_append_of_blankless hw]
          have hsp : isBlank ' ' = true := by decide
          simp only [List.singleton_append, wordsFrom, hsp, if_true, List.append_nil, hrev,
            if_false, List.reverse_reverse]
          rw [ih fun x hx => h x (List.mem_cons_of_mem w hx)]

theorem words_intercalate {ws : List String} (h : ∀ w ∈ ws, w.toList ≠ [] ∧ Blankless w.toList) :
    words (" ".intercalate ws) = ws := by
  have hws : ∀ w ∈ ws.map String.toList, w ≠ [] ∧ Blankless w := by
    simpa using h
  rw [words, String.toList_intercalate]
  show (wordsFrom ([' '].intercalate (ws.map String.toList)) []).map String.ofList = ws
  rw [wordsFrom_intercalate hws, List.map_map]
  simp

theorem modifyHead_self {α : Type} (l : List α) : l.modifyHead (fun x => x) = l := by
  cases l <;> rfl

/-- The words after the open word `w` (kept reversed) are the pieces of the text between blanks,
the first one after `w`, without the empty pieces. -/
theorem wordsFrom_eq_splitOnP (cs w : List Char) :
    wordsFrom cs w = ((cs.splitOnP isBlank).modifyHead (w.reverse ++ ·)).filter (· ≠ []) := by
  induction cs generalizing w with
  | nil => by_cases h : w = [] <;> simp [wordsFrom, List.splitOnP_nil, h]
  | cons c cs ih =>
      rw [List.splitOnP_cons_eq_if_modifyHead]
      by_cases hc : isBlank c = true
      · -- a blank closes the open word
        simp only [wordsFrom, hc, if_true, List.modifyHead_cons]
        rw [ih []]
        by_cases h : w = [] <;> simp [h, modifyHead_self]
      · -- any other character extends it
        simp only [wordsFrom, hc, Bool.false_eq_true, if_false, List.modifyHead_modifyHead]
        rw [ih (c :: w)]
        congr 2
        funext x
        simp

/-- The words of a text are the pieces between its blanks, the empty ones dropped. -/
theorem words_eq_splitToList (s : String) :
    words s = (s.splitToList isBlank).filter (· ≠ "") := by
  rw [words, wordsFrom_eq_splitOnP, String.splitToList_of_valid, List.filter_map]
  simp [Function.comp_def, modifyHead_self]

/-- Every word found after an open word without blanks is a nonempty run without blanks. -/
theorem blankless_of_mem_wordsFrom {cs w v : List Char} (hw : Blankless w)
    (hv : v ∈ wordsFrom cs w) : v ≠ [] ∧ Blankless v := by
  induction cs generalizing w with
  | nil =>
      by_cases h : w = []
      · simp [wordsFrom, h] at hv
      · simp only [wordsFrom, h, if_false, List.mem_singleton] at hv
        subst hv
        exact ⟨by simpa using h, fun c hc => hw c (List.mem_reverse.1 hc)⟩
  | cons c cs ih =>
      by_cases hc : isBlank c = true
      · by_cases h : w = []
        · simp only [wordsFrom, hc, if_true, h] at hv
          exact ih blankless_nil hv
        · simp only [wordsFrom, hc, if_true, h, if_false, List.mem_cons] at hv
          rcases hv with rfl | hv
          · exact ⟨by simpa using h, fun c hc => hw c (List.mem_reverse.1 hc)⟩
          · exact ih blankless_nil hv
      · simp only [wordsFrom, hc, Bool.false_eq_true, if_false] at hv
        exact ih (blankless_cons.2 ⟨by simpa using hc, hw⟩) hv

theorem blankless_of_mem_words {s w : String} (hw : w ∈ words s) :
    w.toList ≠ [] ∧ Blankless w.toList := by
  obtain ⟨v, hv, rfl⟩ := List.mem_map.1 hw
  simpa using blankless_of_mem_wordsFrom blankless_nil hv

/-- No word is found after an open word exactly when the open word is empty and every
character after it is a blank. -/
theorem wordsFrom_eq_nil_iff {cs w : List Char} :
    wordsFrom cs w = [] ↔ w = [] ∧ ∀ c ∈ cs, isBlank c = true := by
  induction cs generalizing w with
  | nil => by_cases h : w = [] <;> simp [wordsFrom, h]
  | cons c cs ih =>
      by_cases hc : isBlank c = true
      · by_cases h : w = [] <;> simp [wordsFrom, hc, h, ih]
      · -- a character that is no blank opens or extends a word
        simp [wordsFrom, hc, ih]

/-- A text has no words exactly when all its characters are blanks. -/
theorem words_eq_nil_iff {s : String} : words s = [] ↔ ∀ c ∈ s.toList, isBlank c = true := by
  simp [words, wordsFrom_eq_nil_iff]

/-! ### Trimming -/

/-- A text that neither starts nor ends with a blank is its own trimmed form. -/
theorem trimChars_eq_self {cs : List Char} (hhead : ∀ c ∈ cs.head?, isBlank c = false)
    (hlast : ∀ c ∈ cs.getLast?, isBlank c = false) : trimChars cs = cs := by
  have hfront : cs.dropWhile isBlank = cs := by
    cases cs with
    | nil => rfl
    | cons c cs => simp [hhead c rfl]
  have hback : cs.reverse.dropWhile isBlank = cs.reverse := by
    cases h : cs.reverse with
    | nil => rfl
    | cons c cs' =>
        have hc : c ∈ cs.getLast? := by simp [← List.head?_reverse, h]
        simp [hlast c hc]
  rw [trimChars, hfront, hback, List.reverse_reverse]

/-- A text is empty once trimmed exactly when all its characters are blanks. -/
theorem trimChars_eq_nil_iff {cs : List Char} : trimChars cs = [] ↔ ∀ c ∈ cs, isBlank c = true := by
  rw [← List.dropWhile_eq_nil_iff, trimChars, List.reverse_eq_nil_iff, List.dropWhile_eq_nil_iff]
  simp only [List.mem_reverse]
  constructor
  · -- a character left after the leading blanks is no blank
    intro h
    by_contra hne
    exact absurd (h _ (List.head_mem hne)) (by simp [List.head_dropWhile_not isBlank hne])
  · intro h c hc
    rw [h] at hc
    cases hc

/-- A blank line: all its characters are blanks. -/
def Blank (l : String) : Prop := ∀ c ∈ l.toList, isBlank c = true

instance : DecidablePred Blank := fun l =>
  decidable_of_iff (l.toList.all isBlank = true) (by simp [Blank])

/-- A line is empty once trimmed exactly when it is blank. -/
theorem trimChars_eq_nil_iff_blank {l : String} : trimChars l.toList = [] ↔ Blank l :=
  trimChars_eq_nil_iff

/-- A line has no words exactly when it is blank. -/
theorem words_eq_nil_iff_blank {l : String} : words l = [] ↔ Blank l := words_eq_nil_iff

/-! ### Upper case -/

/-- No run of the one-character upper case lands on a blank. -/
theorem caseRuns_avoid_blanks :
    caseRuns.all (fun r => blankRanges.all fun b =>
      decide ((b.2 : Int) < r.first + r.shift ∨ r.last + r.shift < b.1)) = true := by
  decide

/-- No character of the several-character upper case is a blank. -/
theorem multiUpper_avoids_blanks :
    multiUpper.all (fun p => p.2.all fun u => !blankRanges.contains u) = true := by
  decide

theorem isBlank_ofNat {n : Nat} (h : blankRanges.contains n = false) :
    isBlank (Char.ofNat n) = false := by
  rw [isBlank, Char.toNat_ofNat]
  split_ifs
  · exact h
  · decide

theorem isBlank_of_caseRun {r : CaseRun} (hr : r ∈ caseRuns) {n : Nat} (hn : r.Holds n) :
    isBlank (Char.ofNat (n + r.shift).toNat) = false := by
  have hall := List.all_eq_true.1 caseRuns_avoid_blanks r hr
  apply isBlank_ofNat
  rw [Bool.eq_false_iff]
  intro hb
  obtain ⟨b, hb, hlo, hhi⟩ := (Ranges.contains_iff _ _).1 hb
  have hsep := of_decide_eq_true (List.all_eq_true.1 hall b hb)
  obtain ⟨h₁, h₂, -⟩ := hn
  -- a blank is never below 9, so the shifted code point is not negative
  have hb9 : 9 ≤ b.1 := by
    simp only [blankRanges, List.mem_cons, List.not_mem_nil, or_false] at hb
    rcases hb with rfl | rfl | rfl | rfl | rfl | rfl | rfl | rfl | rfl | rfl <;> decide
  omega

/-- The upper case of a character that is not a blank has no blank. -/
theorem blankless_upperChar {c : Char} (hc : isBlank c = false) : Blankless (upperChar c) := by
  intro d hd
  unfold upperChar at hd
  split at hd
  · rename_i us hfind
    have hmem := List.mem_of_find?_eq_some hfind
    obtain ⟨u, hu, rfl⟩ := List.mem_map.1 hd
    have hall := List.all_eq_true.1 (List.all_eq_true.1 multiUpper_avoids_blanks _ hmem) u hu
    exact isBlank_ofNat (by simpa using hall)
  · split at hd
    · rename_i r hfind
      have hr := List.mem_of_find?_eq_some hfind
      have hholds := List.find?_some hfind
      rw [List.mem_singleton.1 hd]
      exact isBlank_of_caseRun hr (of_decide_eq_true hholds)
    · rw [List.mem_singleton.1 hd]
      exact hc

theorem blankless_upper {s : String} (hs : Blankless s.toList) : Blankless (upper s).toList := by
  intro d hd
  simp only [upper, String.toList_ofList, List.mem_flatMap] at hd
  obtain ⟨c, hc, hd⟩ := hd
  exact blankless_upperChar (hs c hc) d hd

end Text

end Pcfg
