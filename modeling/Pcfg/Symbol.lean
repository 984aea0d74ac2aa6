import Pcfg.Text.UpperCase
/-!
# Grammar symbols

A symbol of a probabilistic context-free grammar is a non-terminal, a preterminal or a terminal
word. A preterminal is a non-terminal made to expand to exactly one word; its name is `P_` and
the word in upper case (`Symbol.preterminalOf`).

A grammar tells symbols apart only by whether they are terminals and by their names
(`Symbol.key`): a preterminal and a non-terminal of the same name are the same symbol of a
grammar. Both are written by name, and a terminal behind an underscore (`Symbol.text`), so the
written form depends on the key alone (`text_eq_of_key_eq`).

Symbols are read in two ways. In a grammar listing a token is a non-terminal when it starts
with an ASCII capital letter and a terminal word otherwise (`Symbol.ofListingToken`). In a rule
file a token `_w` is the terminal `w`, a token starting with `P_` is a preterminal and any other
token is a non-terminal (`Symbol.ofRuleToken`).
-/

namespace Pcfg

/-- A grammar symbol. -/
inductive Symbol where
  /-- A non-terminal, by its name. -/
  | nonterminal (name : String)
  /-- A non-terminal that expands to exactly one word, by its name. -/
  | preterminal (name : String)
  /-- A word. -/
  | terminal (word : String)
deriving DecidableEq, Repr, Inhabited

namespace Symbol

/-- The name of a non-terminal or preterminal, or the word of a terminal. -/
def name : Symbol → String
  | nonterminal n => n
  | preterminal n => n
  | terminal w => w

/-- The symbol is a word. -/
def isTerminal : Symbol → Bool
  | terminal _ => true
  | _ => false

/-- What a grammar tells symbols apart by. -/
def key (s : Symbol) : Bool × String := (s.isTerminal, s.name)

/-- How the symbol is written in a rule: a terminal behind an underscore, any other by name. -/
def text (s : Symbol) : String := if s.isTerminal then "_" ++ s.name else s.name

theorem text_eq_of_key_eq {a b : Symbol} (h : a.key = b.key) : a.text = b.text := by
  simp only [key, Prod.mk.injEq] at h
  simp [text, h.1, h.2]

/-- The first character is an ASCII capital letter. -/
def StartsUpper (t : String) : Prop := ∃ c r, t.toList = c :: r ∧ c.isUpper = true

instance : DecidablePred StartsUpper := fun t =>
  match h : t.toList with
  | [] => isFalse (by simp [StartsUpper, h])
  | c :: r =>
    if hc : c.isUpper = true then isTrue ⟨c, r, h, hc⟩
    else isFalse (by simp [StartsUpper, h, hc])

/-- A token of a grammar listing: a non-terminal when it starts with an ASCII capital letter,
a word otherwise. -/
def ofListingToken (t : String) : Symbol :=
  if StartsUpper t then nonterminal t else terminal t

/-- A token of a rule file: `_w` is the word `w`, a name starting with `P_` a preterminal, any
other name a non-terminal. -/
def ofRuleToken (t : String) : Symbol :=
  match t.toList with
  | '_' :: w => terminal (String.ofList w)
  | 'P' :: '_' :: _ => preterminal t
  | _ => nonterminal t

/-- The preterminal that stands for a word: `P_` and the word in upper case. -/
def preterminalOf (w : String) : Symbol := preterminal ("P_" ++ Text.upper w)

@[simp] theorem isTerminal_terminal (w : String) : (terminal w).isTerminal = true := rfl

@[simp] theorem isTerminal_preterminalOf (w : String) : (preterminalOf w).isTerminal = false := rfl

end Symbol

/-- The right-hand side of a rule: its symbols in order. -/
abbrev Rhs := List Symbol

namespace Rhs

/-- What a grammar tells right-hand sides apart by: the keys of their symbols. -/
def key (r : Rhs) : List (Bool × String) := r.map Symbol.key

/-- The two right-hand sides have the same keys, compared symbol by symbol. -/
def sameKey : Rhs → Rhs → Bool
  | [], [] => true
  | a :: r, b :: s => a.isTerminal == b.isTerminal && a.name == b.name && sameKey r s
  | _, _ => false

theorem sameKey_iff (r s : Rhs) : sameKey r s = true ↔ r.key = s.key := by
  induction r generalizing s with
  | nil => cases s <;> simp [sameKey, key]
  | cons a r ih =>
    cases s with
    | nil => simp [sameKey, key]
    | cons b s =>
      simp only [sameKey, Bool.and_eq_true, beq_iff_eq, key, List.map_cons, List.cons.injEq,
        Symbol.key, Prod.mk.injEq]
      rw [ih]
      simp [key, and_assoc]

/-- The symbols written one after another, a space between two. -/
def text (r : Rhs) : String := " ".intercalate (r.map Symbol.text)

end Rhs

end Pcfg
