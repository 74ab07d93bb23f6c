import Regen.Table.Basic

/-!
Comparing fresh candidates with the live values of the previous table.

`Table.diff` pairs by position, `Table.diffOn` by a key: the first candidate
with a key takes the first previous value with that key.  A pair that compares
equal keeps the previous value and is cached; a pair that does not carries the
candidate and is modified; a candidate without a partner is added.  Previous
values without a partner follow as removed, in their order.  In either form the
comparison takes the previous value first.
-/

namespace Regen

namespace Entry

variable {α : Type}

def ofPair (eq : α → α → Bool) (old new : α) : Entry α :=
  if eq old new then ⟨old, .cached⟩ else ⟨new, .modified⟩

end Entry

namespace Table

variable {α κ : Type}

/-! ## By position -/

def diffValues (eq : α → α → Bool) : List α → List α → List (Entry α)
  | olds, [] => olds.map Entry.ofRemoved
  | [], c :: cs => Entry.ofAdded c :: diffValues eq [] cs
  | old :: olds, c :: cs => Entry.ofPair eq old c :: diffValues eq olds cs

def diff (eq : α → α → Bool) (previous : Table α) (candidates : List α) :
    Table α :=
  ⟨diffValues eq previous.values candidates⟩

/-! ## By key -/

/-- One entry per candidate; `taken` holds the keys of earlier candidates. -/
def pairByKey [DecidableEq κ] (key : α → κ) (eq : α → α → Bool)
    (olds : List α) : List κ → List α → List (Entry α)
  | _, [] => []
  | taken, c :: cs =>
      let partner :=
        if key c ∈ taken then none else olds.find? (key · = key c)
      let entry :=
        match partner with
        | some old => Entry.ofPair eq old c
        | none => Entry.ofAdded c
      entry :: pairByKey key eq olds (key c :: taken) cs

/--
The previous values that found no partner: those whose key no candidate has, and
those that come after another value with the same key.
-/
def unpaired [DecidableEq κ] (key : α → κ) (wanted : List κ) :
    List κ → List α → List α
  | _, [] => []
  | seen, old :: olds =>
      let rest := unpaired key wanted (key old :: seen) olds
      if key old ∈ wanted ∧ key old ∉ seen then rest else old :: rest

def diffOn [DecidableEq κ] (key : α → κ) (eq : α → α → Bool)
    (previous : Table α) (candidates : List α) : Table α :=
  ⟨pairByKey key eq previous.values [] candidates ++
    (unpaired key (candidates.map key) [] previous.values).map Entry.ofRemoved⟩

/-! ## First runs -/

theorem diffValues_nil (eq : α → α → Bool) (cs : List α) :
    diffValues eq [] cs = cs.map Entry.ofAdded := by
  induction cs with
  | nil => rfl
  | cons c cs ih => simp [diffValues, ih]

theorem diff_empty (eq : α → α → Bool) (cs : List α) :
    diff eq empty cs = ⟨cs.map Entry.ofAdded⟩ := by
  simp [diff, diffValues_nil]

theorem pairByKey_nil [DecidableEq κ] (key : α → κ) (eq : α → α → Bool)
    (taken : List κ) (cs : List α) :
    pairByKey key eq [] taken cs = cs.map Entry.ofAdded := by
  induction cs generalizing taken with
  | nil => rfl
  | cons c cs ih => simp [pairByKey, ih]

theorem diffByKey_empty [DecidableEq κ] (key : α → κ) (eq : α → α → Bool)
    (cs : List α) : diffOn key eq empty cs = ⟨cs.map Entry.ofAdded⟩ := by
  simp [diffOn, pairByKey_nil, unpaired]

end Table

end Regen
