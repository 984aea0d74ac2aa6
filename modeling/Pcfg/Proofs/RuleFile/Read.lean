import Mathlib
import Pcfg.Proofs.RuleFile.Verdict
import Pcfg.Proofs.Text.Lines
import Pcfg.RuleFile.Read
/-!
# Reading a rule file

A rule file is read line by line. A blank line (all of its characters blanks, so nothing is left
once it is trimmed) is skipped but still counted; every other line must give a rule
(`RuleFile.Verdict`). The rules come in the order of their lines, and the first line that does
not give one stops the reading with its number, counted from one over all lines.

The lines of a text are all valid UTF-8 (`Text.lines_toUTF8`), so reading a text never fails for
its encoding: it gives the rules of its lines that are not blank exactly when each of them gives
one (`RuleFile.readFrom_eq_ok_iff`), and otherwise the first refusal
(`RuleFile.readFrom_eq_error_iff`).

Main statement: `RuleFile.read_text_outcome`.
-/

namespace Pcfg

namespace RuleFile

open Text

variable {n : Nat} {l : String} {ls : List String}

/-! ### One line -/

theorem readFrom_blank (hl : Blank l) (n : Nat) (xs : List (Option String)) :
    readFrom n (some l :: xs) = readFrom (n + 1) xs := by
  rw [readFrom, if_pos (trimChars_eq_nil_iff_blank.2 hl)]

theorem readFrom_refused (hl : ¬ Blank l) {r : RuleError} (hr : Rule.ofLine? l = .error r)
    (xs : List (Option String)) : readFrom n (some l :: xs) = .error (.malformedRule n l r) := by
  rw [readFrom, if_neg (mt trimChars_eq_nil_iff_blank.1 hl), hr]

theorem readFrom_read (hl : ¬ Blank l) {R : Rule} (hR : Rule.ofLine? l = .ok R)
    (xs : List (Option String)) : readFrom n (some l :: xs) = (readFrom (n + 1) xs).map (R :: ·) := by
  rw [readFrom, if_neg (mt trimChars_eq_nil_iff_blank.1 hl), hR]

/-! ### Whole files -/

/-- Lines of text are read into the rules of their lines that are not blank, in order, exactly
when each of those lines gives one. -/
theorem readFrom_eq_ok_iff (n : Nat) (ls : List String) (rs : List Rule) :
    readFrom n (ls.map some) = .ok rs ↔
      List.Forall₂ (fun l R => Rule.ofLine? l = .ok R) (ls.filter fun l => ¬ Blank l) rs := by
  -- induction on the lines, for every first number and every list of rules
  induction ls generalizing n rs with
  | nil => cases rs <;> simp [readFrom]
  | cons l ls ih =>
      rw [List.map_cons]
      by_cases hl : Blank l
      · rw [readFrom_blank hl, ih, List.filter_cons_of_neg (by simpa using hl)]
      · rw [List.filter_cons_of_pos (by simpa using hl), List.forall₂_cons_left_iff]
        cases hR : Rule.ofLine? l with
        | error r => simp [readFrom_refused hl hR]
        | ok R =>
            rw [readFrom_read hl hR]
            constructor
            · -- the rest of the lines are read into the rules after `R`
              intro h
              cases hrest : readFrom (n + 1) (ls.map some) with
              | error e => simp [hrest, Except.map] at h
              | ok rs' =>
                  simp only [hrest, Except.map, Except.ok.injEq] at h
                  exact ⟨R, rs', rfl, (ih (n + 1) rs').1 hrest, h.symm⟩
            · rintro ⟨R', rs', hR', hrs', rfl⟩
              obtain rfl := Except.ok.inj hR'
              rw [(ih (n + 1) rs').2 hrs']
              rfl

/-- A relation can be met along a list exactly when each of its elements has a partner. -/
theorem exists_forall₂_iff {α β : Type} {R : α → β → Prop} {xs : List α} :
    (∃ ys, List.Forall₂ R xs ys) ↔ ∀ x ∈ xs, ∃ y, R x y := by
  induction xs with
  | nil => simp
  | cons x xs ih =>
      simp only [List.forall₂_cons_left_iff, List.mem_cons, forall_eq_or_imp, ← ih]
      constructor
      · rintro ⟨_, y, ys, hR, hys, rfl⟩
        exact ⟨⟨y, hR⟩, ys, hys⟩
      · rintro ⟨⟨y, hR⟩, ys, hys⟩
        exact ⟨y :: ys, y, ys, hR, hys, rfl⟩

/-- Lines of text stop the reading exactly at the first line that is not blank and gives no
rule, numbered by its place among all the lines. -/
theorem readFrom_eq_error_iff (n : Nat) (ls : List String) (e : Error) :
    readFrom n (ls.map some) = .error e ↔
      ∃ pre l rest, ls = pre ++ l :: rest ∧
        (∀ l' ∈ pre, ¬ Blank l' → ∃ R, Rule.ofLine? l' = .ok R) ∧
          ∃ r, ¬ Blank l ∧ Rule.ofLine? l = .error r ∧ e = .malformedRule (n + pre.length) l r := by
  constructor
  · -- induction on the lines: the stop is at the first line, or the reading goes past it
    intro h
    induction ls generalizing n with
    | nil => simp [readFrom] at h
    | cons l ls ih =>
        rw [List.map_cons] at h
        have hnum : ∀ pre : List String, n + (l :: pre).length = n + 1 + pre.length := by
          intro pre
          simp only [List.length_cons]
          omega
        by_cases hl : Blank l
        · rw [readFrom_blank hl] at h
          obtain ⟨pre, y, rest, rfl, hpre, r, hy⟩ := ih (n + 1) h
          refine ⟨l :: pre, y, rest, rfl, List.forall_mem_cons.2 ⟨fun hb => absurd hl hb, hpre⟩, r, ?_⟩
          rwa [hnum]
        · cases hR : Rule.ofLine? l with
          | error r =>
              rw [readFrom_refused hl hR, Except.error.injEq] at h
              exact ⟨[], l, ls, rfl, by simp, r, hl, hR, by simpa using h.symm⟩
          | ok R =>
              rw [readFrom_read hl hR] at h
              have hrest : readFrom (n + 1) (ls.map some) = .error e := by
                cases hx : readFrom (n + 1) (ls.map some) <;> simp_all [Except.map]
              obtain ⟨pre, y, rest, rfl, hpre, r, hy⟩ := ih (n + 1) hrest
              refine ⟨l :: pre, y, rest, rfl, List.forall_mem_cons.2 ⟨fun _ => ⟨R, hR⟩, hpre⟩, r, ?_⟩
              rwa [hnum]
  · -- induction on the lines before the stop
    rintro ⟨pre, l, rest, rfl, hpre, r, hl, hr, rfl⟩
    induction pre generalizing n with
    | nil => simpa using readFrom_refused hl hr (n := n) _
    | cons p pre ih =>
        obtain ⟨hp, hpre⟩ := List.forall_mem_cons.1 hpre
        have hnum : n + (p :: pre).length = n + 1 + pre.length := by
          simp only [List.length_cons]
          omega
        rw [List.cons_append, List.map_cons, hnum]
        by_cases hb : Blank p
        · rw [readFrom_blank hb, ih (n + 1) hpre]
        · obtain ⟨R, hR⟩ := hp hb
          rw [readFrom_read hb hR, ih (n + 1) hpre]
          rfl

/-! ### Reading a text -/

/-- Reading a text as a rule file. Its lines are all valid text. The reading gives rules exactly
when every line that is not blank gives one, and the rules are then those of these lines, in file
order. Otherwise it stops at the first line that is not blank and gives no rule, with that line,
its number counted from one over all lines, blank ones included, and the first check the line
fails. A line gives a rule exactly when its trimmed form passes the seven checks of
`RuleFile.Verdict`, and otherwise fails the first of them that it fails, in the order: no `->[`,
no `] : ` after it, an empty tag, a probability that is no decimal literal of number characters,
a probability below zero, no children, children that mix words with non-terminals. -/
theorem read_text_outcome (s : String) :
    ∃ ls : List String, Text.lines s.toUTF8 = ls.map some ∧
      ((∃ rs, read s.toUTF8 = .ok rs) ↔ ∀ l ∈ ls, ¬ Blank l → ∃ R, Rule.ofLine? l = .ok R) ∧
      (∀ rs, read s.toUTF8 = .ok rs ↔
        List.Forall₂ (fun l R => Rule.ofLine? l = .ok R) (ls.filter fun l => ¬ Blank l) rs) ∧
      (∀ e, read s.toUTF8 = .error e ↔
        ∃ pre l rest, ls = pre ++ l :: rest ∧
          (∀ l' ∈ pre, ¬ Blank l' → ∃ R, Rule.ofLine? l' = .ok R) ∧
            ∃ r, ¬ Blank l ∧ Rule.ofLine? l = .error r ∧ e = .malformedRule (pre.length + 1) l r) ∧
      (∀ line v, Rule.ofLine? line = v ↔ Verdict (trimChars line.toList) v) := by
  obtain ⟨ls, hls⟩ := lines_toUTF8 s
  have hok : ∀ rs, read s.toUTF8 = .ok rs ↔
      List.Forall₂ (fun l R => Rule.ofLine? l = .ok R) (ls.filter fun l => ¬ Blank l) rs := by
    intro rs
    rw [read, hls, readFrom_eq_ok_iff]
  refine ⟨ls, hls, ?_, hok, fun e => ?_, ofLine?_eq_iff_verdict⟩
  · -- rules for all the lines that are not blank exist exactly when each of them gives one
    simp only [hok, exists_forall₂_iff, List.mem_filter, decide_eq_true_eq, and_imp]
  · rw [read, hls, readFrom_eq_error_iff]
    simp only [Nat.add_comm 1]

end RuleFile

end Pcfg
