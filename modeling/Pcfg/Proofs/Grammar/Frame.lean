import Mathlib
import Pcfg.Proofs.Grammar.Update
/-!
# What one call changes

A call touches the grammar at its own tag only. After a successful call every other tag is
looked up as before, and the entry of the call's tag is one whose expansions are the old ones
in the same order, followed by the requested right-hand side exactly when the call reports
`true`; `addPreterminal` sets the mark of the tag and `add` leaves it as it was
(`Grammar.find?_apply`). A tag that had no entry counts as one with no expansions, so a new tag
gets the requested right-hand side alone.

A refused call leaves the grammar as it was, and its conflict names the tag, the tag's
expansions at the time in the order they were first added, and the requested right-hand side
(`Grammar.conflict_of_apply_eq_error`).

Main statement: `Grammar.apply_frame`.
-/

namespace Pcfg

namespace Grammar

variable {g g' : Grammar} {c : Call} {b : Bool} {t : String}

/-- The expansions of a tag, none when it has no entry. -/
def expansionsOf (g : Grammar) (t : String) : List Rhs := (g.expansions? t).getD []

theorem expansionsOf_of_find? {e : Entry} (he : g.find? t = some e) :
    g.expansionsOf t = e.expansions := by
  simp [expansionsOf, expansions?, he]

theorem expansionsOf_of_find?_none (he : g.find? t = none) : g.expansionsOf t = [] := by
  simp [expansionsOf, expansions?, he]

theorem isPreterminal_of_find? {e : Entry} (he : g.find? t = some e) :
    g.isPreterminal t = e.preterminal := by
  simp [isPreterminal, he]

theorem isPreterminal_of_find?_none (he : g.find? t = none) : g.isPreterminal t = false := by
  simp [isPreterminal, he]

/-- A lookup that answers `e` for `e`'s tag and the old answer elsewhere, as after `put`. -/
theorem find?_eq_ite_of_find? {e : Entry} (he : g.find? e.tag = some e) (t : String) :
    g.find? t = if e.tag = t then some e else g.find? t := by
  split_ifs with h
  · rw [← h, he]
  · rfl

/-! ### A successful call -/

/-- The one equation of a successful call through the lookup: the call's tag gets an entry that
keeps the old expansions in order, adds the requested one at the end exactly when the call
reports `true`, and is marked when it was or when the call marks; every other tag is looked up
as before. -/
theorem find?_apply (h : c.apply g = .ok (b, g')) :
    ∃ e : Entry, e.tag = c.rule.lhs ∧
      e.expansions = (if b then g.expansionsOf c.rule.lhs ++ [c.rule.rhs]
        else g.expansionsOf c.rule.lhs) ∧
      e.preterminal = (g.isPreterminal c.rule.lhs || c.marks) ∧
      ∀ t, g'.find? t = if c.rule.lhs = t then some e else g.find? t := by
  cases c with
  | add p =>
      rcases add_eq_ok h with ⟨hn, rfl, rfl⟩ | ⟨e, he, ⟨-, -, rfl, rfl⟩ | ⟨-, hp, rfl, rfl⟩⟩
      · -- a new tag, unmarked, with the one expansion
        refine ⟨⟨p.lhs, false, [p.rhs]⟩, rfl, ?_, ?_, find?_put g _⟩
        · simp [expansionsOf_of_find?_none hn]
        · simp [isPreterminal_of_find?_none hn]
      · -- the expansion is there already: nothing changes
        have htag := (find?_eq_some he).2
        refine ⟨e, htag, by simp [expansionsOf_of_find? he], ?_, ?_⟩
        · simp [isPreterminal_of_find? he]
        · rw [Call.rule_add, ← htag]
          exact find?_eq_ite_of_find? (htag ▸ he)
      · -- the expansion is appended to the unmarked entry
        have htag := (find?_eq_some he).2
        refine ⟨{ e with expansions := e.expansions ++ [p.rhs] }, htag, ?_, ?_, ?_⟩
        · simp [expansionsOf_of_find? he]
        · simp [isPreterminal_of_find? he, hp]
        · rw [Call.rule_add, ← htag]
          exact find?_put g _
  | addPreterminal p =>
      rcases addPreterminal_eq_ok h with ⟨hn, rfl, rfl⟩ | ⟨e, he, -, rfl, rfl⟩
      · -- a new tag, marked, with the one expansion
        refine ⟨⟨p.lhs, true, [p.rhs]⟩, rfl, ?_, by simp, find?_put g _⟩
        simp [expansionsOf_of_find?_none hn]
      · -- an existing tag is only marked
        have htag := (find?_eq_some he).2
        refine ⟨{ e with preterminal := true }, htag, ?_, by simp, ?_⟩
        · simp [expansionsOf_of_find? he]
        · rw [Call.rule_addPreterminal, ← htag]
          exact find?_put g _

theorem find?_apply_of_ne (h : c.apply g = .ok (b, g')) (ht : t ≠ c.rule.lhs) :
    g'.find? t = g.find? t := by
  obtain ⟨e, -, -, -, hfind⟩ := find?_apply h
  simp [hfind, Ne.symm ht]

/-- A successful call marks its tag when it is `addPreterminal`, and no other. -/
theorem isPreterminal_apply (h : c.apply g = .ok (b, g')) (t : String) :
    g'.isPreterminal t = (g.isPreterminal t || c.marks && t == c.rule.lhs) := by
  obtain ⟨e, -, -, hmark, hfind⟩ := find?_apply h
  by_cases ht : c.rule.lhs = t
  · subst ht
    simp [isPreterminal_of_find? (show g'.find? c.rule.lhs = some e by simp [hfind]), hmark]
  · simp [isPreterminal, hfind, ht, Ne.symm ht]

/-- `addPreterminal` reports `true` exactly when its tag had no entry. -/
theorem addPreterminal_new_iff {p : Production} (h : g.addPreterminal p = .ok (b, g')) :
    b = true ↔ g.find? p.lhs = none := by
  rcases addPreterminal_eq_ok h with ⟨hn, rfl, -⟩ | ⟨e, he, -, rfl, -⟩
  · simp [hn]
  · simp [he]

/-! ### A refused call -/

/-- A refused call reports its tag, the tag's expansions at the time and the requested
right-hand side, and the grammar stays as it was. -/
theorem conflict_of_apply_eq_error {k : Conflict} (h : c.apply g = .error k) :
    c.next g = g ∧ k = ⟨c.rule.lhs, g.expansionsOf c.rule.lhs, c.rule.rhs⟩ := by
  refine ⟨by simp [Call.next, h], ?_⟩
  have hk : ∃ e, g.find? c.rule.lhs = some e ∧ k = e.conflict c.rule.rhs := by
    cases c with
    | add p =>
        obtain ⟨e, he, -, -, rfl⟩ := add_eq_error h
        exact ⟨e, he, rfl⟩
    | addPreterminal p =>
        obtain ⟨e, he, -, rfl⟩ := addPreterminal_eq_error h
        exact ⟨e, he, rfl⟩
  obtain ⟨e, he, rfl⟩ := hk
  rw [expansionsOf_of_find? he, ← (find?_eq_some he).2]
  rfl

/-! ### Every call on every grammar -/

/-- Whatever the grammar, a call of `add` or `addPreterminal` changes it only at its own tag.
A refused call changes nothing, and its conflict names the tag, lists the tag's expansions at
the time in the order they were first added (written joined by ` | `) and gives the requested
right-hand side. A successful call leaves every other tag's entry as it was; it marks its tag
when it is `addPreterminal` and changes no other mark; and the tag's expansions afterwards are
the old ones followed by the requested one when the call reports `true`, the old ones
otherwise, so the old list is a prefix of the new one. `addPreterminal` reports `true` exactly
when the tag had no entry, which then ends with the requested right-hand side alone. -/
theorem apply_frame (c : Call) (g : Grammar) :
    (∀ k, c.apply g = .error k → c.next g = g ∧
      k = ⟨c.rule.lhs, g.expansionsOf c.rule.lhs, c.rule.rhs⟩ ∧
      k.existingText = " | ".intercalate ((g.expansionsOf c.rule.lhs).map Rhs.text) ∧
      k.requestedText = c.rule.rhs.text) ∧
    (∀ b g', c.apply g = .ok (b, g') →
      (∀ t, t ≠ c.rule.lhs → g'.find? t = g.find? t) ∧
      (∀ t, g'.isPreterminal t = (g.isPreterminal t || c.marks && t == c.rule.lhs)) ∧
      g'.expansions? c.rule.lhs = some (if b then g.expansionsOf c.rule.lhs ++ [c.rule.rhs]
        else g.expansionsOf c.rule.lhs) ∧
      (c.marks = true → (b = true ↔ g.find? c.rule.lhs = none))) := by
  refine ⟨fun k hk => ?_, fun b g' hok => ?_⟩
  · obtain ⟨hnext, rfl⟩ := conflict_of_apply_eq_error hk
    exact ⟨hnext, rfl, rfl, rfl⟩
  · obtain ⟨e, -, hexp, -, hfind⟩ := find?_apply hok
    refine ⟨fun t ht => find?_apply_of_ne hok ht, isPreterminal_apply hok, ?_, ?_⟩
    · have he : g'.find? c.rule.lhs = some e := by simp [hfind]
      simp [expansions?, he, hexp]
    · intro hm
      cases c with
      | add p => simp at hm
      | addPreterminal p => exact addPreterminal_new_iff hok

end Grammar

end Pcfg
