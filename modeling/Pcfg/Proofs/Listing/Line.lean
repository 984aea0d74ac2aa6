import Mathlib
import Pcfg.Proofs.Listing.Homogenize
/-!
# Reading a listing line

A listing line is cut into its words, the pieces between blanks with the empty pieces dropped
(`Text.words_eq_splitToList`), and read from them alone as a chain of checks
(`Listing.Line.ofWords?_eq`). A first word that looks like a number asks for a second one that
does, and only then for five words, the tag third and the children from the fifth on; any other
line asks for three words, the tag first and the children from the third on. The word after the
tag is the arrow and is not looked at.

So a line with a lone number, or a number and a word, is refused for its second word, not for
its length. A line that is read has a tag and at least one child, all words without blanks; a
plain line's tag does not look like a number, and a line with prior parameters starts with two
words that do.

Main statement: `Listing.Line.ofString?_via_words`.
-/

namespace Pcfg

namespace Listing

variable {l : Line}

theorem Line.ofTagWords_eq (form : Form) (ws : List String) :
    Line.ofTagWords form ws =
      if h : ws.length < 3 then .error .tooFewWords else .ok ⟨form, ws[0], ws.drop 2⟩ := by
  match ws with
  | [] | [_] | [_, _] => rfl
  | t :: a :: c :: cs => simp [Line.ofTagWords]

theorem isNumberLike_eq_false {t : String} (h : ¬ NumberLike t) : isNumberLike t = false := by
  rw [Bool.eq_false_iff, Ne, isNumberLike_iff]
  exact h

/-- Reading the words of a line, check by check: the prior parameters first, then the count. -/
theorem Line.ofWords?_eq (ws : List String) :
    Line.ofWords? ws =
      if ws[0]?.any isNumberLike then
        if !(ws[1]?.any isNumberLike) then .error .secondPriorNotNumeric
        else if h : ws.length < 5 then .error .tooFewWords
        else .ok ⟨.dirichlet, ws[2], ws.drop 4⟩
      else if h : ws.length < 3 then .error .tooFewWords
      else .ok ⟨.plain, ws[0], ws.drop 2⟩ := by
  rcases ws with _ | ⟨p, rest⟩
  · rfl
  · by_cases hp : NumberLike p
    · rcases rest with _ | ⟨q, ws⟩
      · simp [Line.ofWords?, hp, (isNumberLike_iff p).2 hp]
      · by_cases hq : NumberLike q
        · -- the tag and the children come two words later than in a plain line
          have hlen : ws.length + 1 + 1 < 5 ↔ ws.length < 3 := by omega
          simp [Line.ofWords?, hp, hq, (isNumberLike_iff p).2 hp, (isNumberLike_iff q).2 hq,
            Line.ofTagWords_eq, hlen]
        · simp [Line.ofWords?, hp, hq, (isNumberLike_iff p).2 hp, isNumberLike_eq_false hq]
    · simp [Line.ofWords?, hp, isNumberLike_eq_false hp, Line.ofTagWords_eq]

/-- The form of a line that is read is told by its first words: a plain line's tag is its first
word and does not look like a number; a line with prior parameters has two words that do before
its tag. -/
theorem Line.form_of_ofWords? {ws : List String} (h : Line.ofWords? ws = .ok l) :
    (l.form = .plain → ws[0]? = some l.tag ∧ ¬ NumberLike l.tag) ∧
    (l.form = .dirichlet → ∃ a b, ws.take 3 = [a, b, l.tag] ∧ NumberLike a ∧ NumberLike b) := by
  rw [Line.ofWords?_eq] at h
  split_ifs at h with h0 h1 h5 h3 <;> cases h
  · -- prior parameters: at least five words, the first two like numbers
    refine ⟨by simp, fun _ => ?_⟩
    match ws, h5 with
    | [], h5 | [_], h5 | [_, _], h5 => simp at h5
    | a :: b :: c :: rest, _ =>
        simp only [List.getElem?_cons_zero, List.getElem?_cons_succ, Option.any_some,
          Bool.not_eq_true', Bool.not_eq_false] at h0 h1
        exact ⟨a, b, rfl, (isNumberLike_iff a).1 h0, (isNumberLike_iff b).1 h1⟩
  · -- plain: the tag is the first word, which does not look like a number
    refine ⟨fun _ => ⟨List.getElem?_eq_getElem _, fun hn => h0 ?_⟩, by simp⟩
    rw [List.getElem?_eq_getElem (by omega)]
    exact (isNumberLike_iff _).2 hn

/-- Reading every listing line. Its words are the pieces between blanks (the White_Space
characters), the empty pieces dropped, and its reading depends on them alone. When the first
word looks like a number, the line is refused as having a second prior parameter that is not
numeric unless the second word looks like one too, then refused as too short below five words,
and otherwise read with the third word as tag and the words from the fifth on as children. Any
other line is refused as too short below three words and otherwise read with the first word as
tag and the words from the third on as children. So every line that is read has a nonempty tag
and at least one child, none of them with a blank; a plain line's tag, its first word, does not
look like a number, and a line with prior parameters has two words that do before its tag. -/
theorem Line.ofString?_via_words (s : String) :
    Text.words s = (s.splitToList Text.isBlank).filter (· ≠ "") ∧
    (let toks := Text.words s
     Line.ofString? s =
      (if toks[0]?.any isNumberLike then
        if !(toks[1]?.any isNumberLike) then .error .secondPriorNotNumeric
        else if h : toks.length < 5 then .error .tooFewWords
        else .ok ⟨.dirichlet, toks[2], toks.drop 4⟩
      else if h : toks.length < 3 then .error .tooFewWords
      else .ok ⟨.plain, toks[0], toks.drop 2⟩) ∧
     ∀ l, Line.ofString? s = .ok l →
      (l.tag.toList ≠ [] ∧ Text.Blankless l.tag.toList) ∧ l.children ≠ [] ∧
      (∀ c ∈ l.children, c.toList ≠ [] ∧ Text.Blankless c.toList) ∧
      (l.form = .plain → toks[0]? = some l.tag ∧ ¬ NumberLike l.tag) ∧
      (l.form = .dirichlet → ∃ a b, toks.take 3 = [a, b, l.tag] ∧ NumberLike a ∧ NumberLike b)) := by
  refine ⟨Text.words_eq_splitToList s, Line.ofWords?_eq _, fun l hl => ?_⟩
  obtain ⟨htag, hchildren⟩ := Line.words_of_ofString? hl
  exact ⟨Text.blankless_of_mem_words htag, Line.children_ne_nil_of_ofString? hl,
    fun c hc => Text.blankless_of_mem_words (hchildren c hc), Line.form_of_ofWords? hl⟩

/-- The word after a plain line's tag is a separator: two words are too few, and the children
start at the third word. -/
example : Line.ofString? "DT the" = .error .tooFewWords ∧
    Line.ofString? "NP DT NN" = .ok ⟨.plain, "NP", ["NN"]⟩ := ⟨rfl, rfl⟩

end Listing

end Pcfg
