import Regen.Error
import Regen.Sequence
import Regen.Table.Basic

/-!
Stores: the tables of one run, each under its key.  Tables of different value
types lie side by side, so every table carries the code of its type; reading a
table at another type is an error.  The codes and the types they stand for are
parameters.
-/

namespace Regen

variable {τ : Type} {C : τ → Type}

structure AnyTable (C : τ → Type) where
  type : τ
  table : Table (C type)

namespace AnyTable

def at? [DecidableEq τ] (t : AnyTable C) (type : τ) : Option (Table (C type)) :=
  if h : t.type = type then some (h ▸ t.table) else none

@[simp] theorem at?_self [DecidableEq τ] (type : τ) (table : Table (C type)) :
    (AnyTable.mk type table).at? type = some table := by
  simp [at?]

def settled (t : AnyTable C) : AnyTable C :=
  ⟨t.type, t.table.settled⟩

end AnyTable

structure Store (C : τ → Type) where
  tables : List (TableKey × AnyTable C) := []

namespace Store

def empty : Store C := {}

def find? (s : Store C) (key : TableKey) : Option (AnyTable C) :=
  s.tables.lookup key

def contains (s : Store C) (key : TableKey) : Bool :=
  (s.find? key).isSome

def set (s : Store C) (key : TableKey) (table : AnyTable C) : Store C :=
  ⟨upsert (·.1 == key) (key, table) s.tables⟩

def get [DecidableEq τ] (s : Store C) (type : τ) (key : TableKey) :
    Except RunError (Option (Table (C type))) :=
  match s.find? key with
  | none => .ok none
  | some t =>
      match t.at? type with
      | some table => .ok (some table)
      | none => .error (.typeMismatch key)

/-- As `get`; a table that was never published reads as empty. -/
def getD [DecidableEq τ] (s : Store C) (type : τ) (key : TableKey) :
    Except RunError (Table (C type)) :=
  (s.get type key).map (·.getD Table.empty)

def states? (s : Store C) (key : TableKey) : Option (List Provenance) :=
  (s.find? key).map (·.table.states)

def keys (s : Store C) : List TableKey :=
  TableKey.sort (s.tables.map (·.1))

/-- Copies the tables that a step published before, all marked as cached. -/
def carry (previous : Store C) (graph : GraphId) (step : StepId)
    (s : Store C) : Store C :=
  (previous.tables.filter fun (key, _) => key.graph = graph ∧ key.step = step)
    |>.foldl (fun s (key, table) => s.set key table.settled) s

def carryOver? (previous : Store C) (graph : GraphId) (step : StepId)
    (s : Store C) : Option (Store C) :=
  if previous.contains (.output graph step) then
    some (previous.carry graph step s)
  else none

/-! ## Laws of look-up -/

theorem lookup_upsert {α : Type} (key k : TableKey) (a : α)
    (l : List (TableKey × α)) :
    (upsert (·.1 == key) (key, a) l).lookup k =
      if k = key then some a else l.lookup k := by
  induction l with
  | nil =>
      by_cases h : k = key
      · simp [upsert, h]
      · have hb : (k == key) = false := by simpa using h
        simp [upsert, List.lookup_cons, h, hb]
  | cons e l ih =>
      obtain ⟨k', a'⟩ := e
      by_cases h' : k' = key
      · subst h'
        by_cases h : k = k'
        · simp [upsert, h]
        · have hb : (k == k') = false := by simpa using h
          simp [upsert, List.lookup_cons, h, hb]
      · by_cases h : k = k'
        · subst h
          simp [upsert, h']
        · have hb : (k == k') = false := by simpa using h
          simp [upsert, List.lookup_cons, h', hb, ih]

@[simp] theorem find?_empty (key : TableKey) :
    (empty : Store C).find? key = none := rfl

theorem find?_set (s : Store C) (key k : TableKey) (table : AnyTable C) :
    (s.set key table).find? k = if k = key then some table else s.find? k :=
  lookup_upsert key k table s.tables

@[simp] theorem find?_set_self (s : Store C) (key : TableKey)
    (table : AnyTable C) : (s.set key table).find? key = some table := by
  simp [find?_set]

theorem find?_set_of_ne (s : Store C) {key k : TableKey} (table : AnyTable C)
    (h : k ≠ key) : (s.set key table).find? k = s.find? k := by
  simp [find?_set, h]

theorem get_set_self [DecidableEq τ] (s : Store C) (key : TableKey) (type : τ)
    (table : Table (C type)) :
    (s.set key ⟨type, table⟩).get type key = .ok (some table) := by
  simp [get]

end Store

end Regen
