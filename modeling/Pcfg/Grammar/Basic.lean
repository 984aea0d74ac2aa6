import Pcfg.Listing.Homogenize
/-!
# Grammars

A grammar maps each tag to its expansions: the distinct right-hand sides it expands to, in the
order they were first added. Two right-hand sides are the same expansion when their symbols have
the same keys (`Rhs.key`), so a preterminal and a non-terminal of one name count as one symbol;
the first one added is the one kept. Some tags are marked as preterminals.

A preterminal tag must expand to exactly one right-hand side, ever:

* `Grammar.addPreterminal p` marks `p.lhs`. When the tag is new, it is created with `p.rhs` as
  its only expansion (`true`); when it exists, it is only marked, and only if its expansions are
  exactly `p.rhs` (`false`).
* `Grammar.add p` adds `p.rhs` to the expansions of `p.lhs` unless it is there already (`true`
  when it was added). When the tag is marked, its expansions must be exactly `p.rhs`.

An operation that would break the rule changes nothing and reports a `Grammar.Conflict`.

The entries are kept in increasing order of their tags (the order of code points, which is the
order of the tags' UTF-8 bytes), one entry per tag, so that the grammar is written in tag order
without sorting.
-/

namespace Pcfg

/-- The expansions of one tag. -/
structure Grammar.Entry where
  /-- The tag. -/
  tag : String
  /-- The tag is marked as a preterminal. -/
  preterminal : Bool
  /-- Its distinct right-hand sides, in the order first added. -/
  expansions : List Rhs
deriving DecidableEq, Repr

/-- Tags with their expansions, in increasing order of tags. -/
structure Grammar where
  /-- One entry per tag, in increasing order of tags. -/
  entries : List Grammar.Entry := []
deriving DecidableEq, Repr

/-- A refused expansion of a preterminal tag. -/
structure Grammar.Conflict where
  /-- The preterminal tag. -/
  preterminal : String
  /-- Its expansions at the time. -/
  existing : List Rhs
  /-- The right-hand side that was refused. -/
  requested : Rhs
deriving DecidableEq, Repr

namespace Grammar

/-- The keys of an entry's expansions. -/
def Entry.keys (e : Entry) : List (List (Bool × String)) := e.expansions.map Rhs.key

/-- Some expansion of the entry has the keys of `r`. -/
def Entry.has (e : Entry) (r : Rhs) : Bool := e.expansions.any (Rhs.sameKey r)

theorem Entry.has_iff (e : Entry) (r : Rhs) : e.has r = true ↔ r.key ∈ e.keys := by
  simp only [has, List.any_eq_true, Rhs.sameKey_iff, keys, List.mem_map]
  exact ⟨fun ⟨x, hx, h⟩ => ⟨x, hx, h.symm⟩, fun ⟨x, hx, h⟩ => ⟨x, hx, h.symm⟩⟩

/-- The entry's expansions are exactly `r`: a preterminal may expand to `r`. -/
def Entry.Admits (e : Entry) (r : Rhs) : Prop := e.expansions.length = 1 ∧ e.has r = true

instance (e : Entry) (r : Rhs) : Decidable (e.Admits r) :=
  inferInstanceAs (Decidable (e.expansions.length = 1 ∧ e.has r = true))

/-- The conflict of asking the entry for `r`. -/
def Entry.conflict (e : Entry) (r : Rhs) : Conflict := ⟨e.tag, e.expansions, r⟩

/-- The entry of a tag. -/
def find? (g : Grammar) (tag : String) : Option Entry := g.entries.find? (·.tag = tag)

/-- The expansions of a tag, if it has an entry. -/
def expansions? (g : Grammar) (tag : String) : Option (List Rhs) := (g.find? tag).map (·.expansions)

/-- The tag is marked as a preterminal. -/
def isPreterminal (g : Grammar) (tag : String) : Bool := (g.find? tag).any (·.preterminal)

/-- The number of tags. -/
def tagCount (g : Grammar) : Nat := g.entries.length

/-- The number of rules: expansions over all tags. -/
def ruleCount (g : Grammar) : Nat := g.entries.foldr (fun e n => e.expansions.length + n) 0

/-- The entry replacing the one of its tag, or inserted before the first greater tag. -/
def putEntry (e : Entry) : List Entry → List Entry
  | [] => [e]
  | f :: fs =>
    if e.tag = f.tag then e :: fs
    else if e.tag < f.tag then e :: f :: fs
    else f :: putEntry e fs

/-- The grammar with the entry replacing the one of its tag, or added in tag order. -/
def put (g : Grammar) (e : Entry) : Grammar := ⟨putEntry e g.entries⟩

/-- Adds a rule of a preterminal tag: `true` when the tag was created for it. -/
def addPreterminal (g : Grammar) (p : Production) : Except Conflict (Bool × Grammar) :=
  match g.find? p.lhs with
  | none => .ok (true, g.put ⟨p.lhs, true, [p.rhs]⟩)
  | some e =>
    if e.Admits p.rhs then .ok (false, g.put { e with preterminal := true })
    else .error (e.conflict p.rhs)

/-- Adds a rule: `true` when its right-hand side is a new expansion of its tag. -/
def add (g : Grammar) (p : Production) : Except Conflict (Bool × Grammar) :=
  match g.find? p.lhs with
  | none => .ok (true, g.put ⟨p.lhs, false, [p.rhs]⟩)
  | some e =>
    if e.preterminal ∧ ¬ e.Admits p.rhs then .error (e.conflict p.rhs)
    else if e.has p.rhs then .ok (false, g)
    else .ok (true, g.put { e with expansions := e.expansions ++ [p.rhs] })

/-- Adds preterminal rules in order, up to the first conflict. The grammar returned holds the
rules added before it. -/
def addPreterminals : Grammar → List Production → Grammar × Option Conflict
  | g, [] => (g, none)
  | g, p :: ps =>
    match g.addPreterminal p with
    | .ok (_, g') => addPreterminals g' ps
    | .error c => (g, some c)

/-- Adds the rules of a listing line: its preterminal rules in order, then its own rule, up to
the first conflict. The grammar returned holds the rules added before it. -/
def addLine (g : Grammar) (r : LineRules) : Grammar × Option Conflict :=
  match g.addPreterminals r.preterminals with
  | (g', some c) => (g', some c)
  | (g', none) =>
    match g'.add r.main with
    | .ok (_, g'') => (g'', none)
    | .error c => (g', some c)

/-! ### The written form of a conflict -/

/-- The existing expansions, written and separated by ` | `. -/
def Conflict.existingText (c : Conflict) : String := " | ".intercalate (c.existing.map Rhs.text)

/-- The refused right-hand side, written. -/
def Conflict.requestedText (c : Conflict) : String := c.requested.text

end Grammar

end Pcfg
