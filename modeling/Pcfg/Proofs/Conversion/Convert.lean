import Mathlib
import Pcfg.Proofs.Conversion.Acceptance
import Pcfg.Proofs.RuleFile.Write
/-!
# Converting a whole listing

A listing is cut into lines (`Text.lines`), and the lines are fed one after the other up to the
first error: a line that is not valid UTF-8, or a line that is refused. `Conversion.Accepts`
says that lines are accepted one after the other. Each accepted line counts one more line and a
refused one counts none (`Conversion.Accepts.lines`), so the line that stops a conversion is
numbered by its place among all the lines: every line before it was accepted. A blank line has
no words, so it is always refused as malformed (`Conversion.feed_blank`).

The rule file of a conversion that reaches the end is the one of the grammar it ends in, with
one line per rule of that grammar.

Main statement: `Conversion.convert_outcome`.
-/

namespace Pcfg

/-- The number of the line an error is about; none for an error of no line. -/
def Error.lineNo? : Error → Option Nat
  | .malformedLine n _ _ => some n
  | .preterminalConflict n _ => some n
  | .malformedRule n _ _ => some n
  | .invalidDistribution _ _ => none
  | .invalidText => none

namespace Conversion

variable {c c' c₁ : Conversion} {l : String} {ls : List String} {e : Error}
  {xs : List (Option String)}

/-- The lines are accepted one after the other from `c`, and end in `c'`. -/
inductive Accepts : Conversion → List String → Conversion → Prop where
  /-- No line. -/
  | nil (c : Conversion) : Accepts c [] c
  /-- A line accepted, then the rest from where it left the conversion. -/
  | cons {c c₁ c' : Conversion} {l : String} {ls : List String} :
      c.feed l = (c₁, none) → Accepts c₁ ls c' → Accepts c (l :: ls) c'

theorem accepts_nil_iff : Accepts c [] c' ↔ c' = c := by
  constructor
  · rintro ⟨⟩
    rfl
  · rintro rfl
    exact .nil _

theorem accepts_cons_iff :
    Accepts c (l :: ls) c' ↔ ∃ c₁, c.feed l = (c₁, none) ∧ Accepts c₁ ls c' := by
  constructor
  · rintro (_ | ⟨hfeed, hacc⟩)
    exact ⟨_, hfeed, hacc⟩
  · rintro ⟨c₁, hfeed, hacc⟩
    exact .cons hfeed hacc

/-! ### One line -/

/-- An accepted line counts one more line. -/
theorem lines_of_feed_accepted (h : c.feed l = (c', none)) : c'.lines = c.lines + 1 := by
  unfold feed at h
  split at h
  · cases h
  · split at h
    · cases h
    · cases h
      rfl

/-- A refused line is numbered as the line after those accepted. -/
theorem lineNo?_of_feed_refused (h : (c.feed l).2 = some e) : e.lineNo? = some (c.lines + 1) := by
  unfold feed at h
  split at h
  · cases h
    rfl
  · split at h
    · cases h
      rfl
    · cases h

/-- A blank line has no words: it is refused as malformed, with the next number, and changes
nothing. -/
theorem feed_blank (hl : Text.Blank l) (c : Conversion) :
    c.feed l = (c, some (.malformedLine (c.lines + 1) l .tooFewWords)) := by
  have hwords : Text.words l = [] := Text.words_eq_nil_iff_blank.2 hl
  simp [feed, Listing.Line.ofString?, hwords, Listing.Line.ofWords?]

/-! ### Runs of lines -/

/-- Accepted lines are all counted. -/
theorem Accepts.lines (h : Accepts c ls c') : c'.lines = c.lines + ls.length := by
  induction h with
  | nil => rfl
  | cons hfeed _ ih =>
      rw [ih, lines_of_feed_accepted hfeed, List.length_cons]
      omega

/-- Lines are fed without error exactly when they are all text and accepted one after the
other. -/
theorem feedAll_eq_ok_iff_accepts : c.feedAll xs = .ok c' ↔ ∃ ls, xs = ls.map some ∧ Accepts c ls c' := by
  -- induction on the lines, from every state
  induction xs generalizing c with
  | nil =>
      simp only [feedAll, Except.ok.injEq, List.nil_eq, List.map_eq_nil_iff, exists_eq_left,
        accepts_nil_iff]
      exact eq_comm
  | cons x xs ih =>
      cases x with
      | none =>
          simp only [feedAll, reduceCtorEq, false_iff, not_exists, not_and]
          rintro (_ | ⟨l, ls⟩) h <;> simp at h
      | some l =>
          rcases hfeed : c.feed l with ⟨c₁, _ | e'⟩
          · -- the line is accepted, and the rest is fed from where it left the conversion
            simp only [feedAll, hfeed, ih]
            constructor
            · rintro ⟨ls, rfl, hacc⟩
              exact ⟨l :: ls, rfl, .cons hfeed hacc⟩
            · rintro ⟨_ | ⟨l', ls⟩, hls, hacc⟩
              · simp at hls
              · obtain ⟨rfl, rfl⟩ : l = l' ∧ xs = ls.map some := by simpa using hls
                obtain ⟨c₂, hfeed', hacc⟩ := accepts_cons_iff.1 hacc
                rw [hfeed] at hfeed'
                obtain rfl := (Prod.mk.inj hfeed').1
                exact ⟨ls, rfl, hacc⟩
          · -- the line is refused, and so is every run through it
            simp only [feedAll, hfeed, reduceCtorEq, false_iff, not_exists, not_and]
            rintro (_ | ⟨l', ls⟩) hls hacc
            · simp at hls
            · obtain ⟨rfl, -⟩ : l = l' ∧ xs = ls.map some := by simpa using hls
              obtain ⟨c₂, hfeed', -⟩ := accepts_cons_iff.1 hacc
              rw [hfeed] at hfeed'
              cases hfeed'

/-- Lines stop with an error exactly at the first line that is not text or is refused, after
lines that were all accepted. -/
theorem feedAll_eq_error_iff :
    c.feedAll xs = .error e ↔
      ∃ ls x rest c₁, xs = ls.map some ++ x :: rest ∧ Accepts c ls c₁ ∧
        ((x = none ∧ e = .invalidText) ∨ ∃ l, x = some l ∧ (c₁.feed l).2 = some e) := by
  constructor
  · -- induction on the lines: the stop is at the first line, or further on
    intro h
    induction xs generalizing c with
    | nil => simp [feedAll] at h
    | cons x xs ih =>
        cases x with
        | none =>
            simp only [feedAll, Except.error.injEq] at h
            exact ⟨[], none, xs, c, rfl, .nil c, .inl ⟨rfl, h.symm⟩⟩
        | some l =>
            rcases hfeed : c.feed l with ⟨c₁, _ | e'⟩
            · simp only [feedAll, hfeed] at h
              obtain ⟨ls, x, rest, c₂, rfl, hacc, hx⟩ := ih h
              exact ⟨l :: ls, x, rest, c₂, rfl, .cons hfeed hacc, hx⟩
            · simp only [feedAll, hfeed, Except.error.injEq] at h
              exact ⟨[], some l, xs, c, rfl, .nil c, .inr ⟨l, rfl, by rw [hfeed, h]⟩⟩
  · -- induction on the accepted lines before the stop
    rintro ⟨ls, x, rest, c₁, rfl, hacc, hx⟩
    induction hacc with
    | nil c =>
        rcases hx with ⟨rfl, rfl⟩ | ⟨l, rfl, hrefused⟩
        · rfl
        · rcases hfeed : c.feed l with ⟨c₂, _ | e'⟩
          · rw [hfeed] at hrefused
            cases hrefused
          · rw [hfeed] at hrefused
            obtain rfl := Option.some.inj hrefused
            simp [feedAll, hfeed]
    | cons hfeed _ ih =>
        simp only [List.map_cons, List.cons_append, feedAll, hfeed]
        exact ih hx

/-! ### Converting a listing -/

theorem convert_eq_ok_iff {bs : ByteArray} {out : String} {n : Nat} :
    convert bs = .ok (out, n) ↔
      ∃ c, ofBytes bs = .ok c ∧ out = c.grammar.toRuleFile ∧ n = c.grammar.ruleCount := by
  unfold convert
  cases ofBytes bs with
  | error e => simp [Except.map]
  | ok c =>
      simp only [Except.map, Except.ok.injEq, Prod.mk.injEq, Grammar.length_ruleLines,
        exists_eq_left']
      constructor
      · rintro ⟨rfl, rfl⟩
        exact ⟨rfl, rfl⟩
      · rintro ⟨rfl, rfl⟩
        exact ⟨rfl, rfl⟩

theorem convert_eq_error_iff {bs : ByteArray} : convert bs = .error e ↔ ofBytes bs = .error e := by
  unfold convert
  cases ofBytes bs <;> simp [Except.map]

/-- Converting a listing given as bytes, cut into lines. The conversion writes a rule file and
returns the number of rules written exactly when every line is valid UTF-8 and the lines are
accepted one after the other; the file is then the rule file of the grammar they end in, and
the number is the number of its rules. Otherwise it writes nothing and returns the error of the
first line that is not valid UTF-8 or is refused, all lines before it accepted; the error of a
refused line carries that line's place among all the lines, counted from one. A blank line,
empty or all blanks, is always refused as malformed, and changes nothing. -/
theorem convert_outcome (bs : ByteArray) :
    (∀ out n, convert bs = .ok (out, n) ↔
      ∃ ls c, Text.lines bs = ls.map some ∧ Accepts {} ls c ∧
        out = c.grammar.toRuleFile ∧ n = c.grammar.ruleCount) ∧
    (∀ e, convert bs = .error e ↔
      ∃ ls x rest c, Text.lines bs = ls.map some ++ x :: rest ∧ Accepts {} ls c ∧
        ((x = none ∧ e = .invalidText) ∨
          ∃ l, x = some l ∧ (c.feed l).2 = some e ∧ e.lineNo? = some (ls.length + 1))) ∧
    (∀ (c : Conversion) (l : String), Text.Blank l →
      c.feed l = (c, some (.malformedLine (c.lines + 1) l .tooFewWords))) := by
  refine ⟨fun out n => ?_, fun e => ?_, fun c l hl => feed_blank hl c⟩
  · rw [convert_eq_ok_iff]
    simp only [ofBytes, feedAll_eq_ok_iff_accepts]
    constructor
    · rintro ⟨c, ⟨ls, hls, hacc⟩, hout, hn⟩
      exact ⟨ls, c, hls, hacc, hout, hn⟩
    · rintro ⟨ls, c, hls, hacc, hout, hn⟩
      exact ⟨c, ⟨ls, hls, hacc⟩, hout, hn⟩
  · rw [convert_eq_error_iff, ofBytes, feedAll_eq_error_iff]
    -- the state after the accepted lines has counted them all
    have hnum : ∀ ls c, Accepts {} ls c → c.lines + 1 = ls.length + 1 := by
      intro ls c hacc
      have h0 : ({} : Conversion).lines = 0 := rfl
      rw [hacc.lines, h0, Nat.zero_add]
    constructor
    · rintro ⟨ls, x, rest, c, hxs, hacc, hx | ⟨l, rfl, hrefused⟩⟩
      · exact ⟨ls, x, rest, c, hxs, hacc, .inl hx⟩
      · refine ⟨ls, some l, rest, c, hxs, hacc, .inr ⟨l, rfl, hrefused, ?_⟩⟩
        rw [lineNo?_of_feed_refused hrefused, hnum ls c hacc]
    · rintro ⟨ls, x, rest, c, hxs, hacc, hx | ⟨l, rfl, hrefused, -⟩⟩
      · exact ⟨ls, x, rest, c, hxs, hacc, .inl hx⟩
      · exact ⟨ls, some l, rest, c, hxs, hacc, .inr ⟨l, rfl, hrefused⟩⟩

end Conversion

end Pcfg
