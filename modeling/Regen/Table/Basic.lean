/-!
Tables: the output of one step in one run.  A table is an ordered list of
entries; each entry says how its value relates to the output of the previous
run.  An entry tagged `removed` carries a value that has gone and is not part of
the output; all other entries are live.
-/

namespace Regen

inductive Provenance where
  | added
  | removed
  | modified
  | cached
  deriving DecidableEq, Repr

namespace Provenance

def all : List Provenance :=
  [.added, .removed, .modified, .cached]

def isNew : Provenance → Bool
  | .added | .modified => true
  | .removed | .cached => false

def label : Provenance → String
  | .added => "added"
  | .removed => "removed"
  | .modified => "modified"
  | .cached => "cached"

end Provenance

structure Entry (α : Type) where
  value : α
  state : Provenance
  deriving DecidableEq, Repr

namespace Entry

variable {α : Type}

def isRemoved (e : Entry α) : Bool :=
  e.state == .removed

def isCached (e : Entry α) : Bool :=
  e.state == .cached

def ofCached (value : α) : Entry α :=
  ⟨value, .cached⟩

def ofAdded (value : α) : Entry α :=
  ⟨value, .added⟩

def ofRemoved (value : α) : Entry α :=
  ⟨value, .removed⟩

end Entry

structure Table (α : Type) where
  entries : List (Entry α) := []
  deriving DecidableEq, Repr

namespace Table

variable {α : Type}

def empty : Table α := {}

def live (t : Table α) : List (Entry α) :=
  t.entries.filter (!·.isRemoved)

def values (t : Table α) : List α :=
  t.live.map (·.value)

def single? (t : Table α) : Option α :=
  t.values.head?

def states (t : Table α) : List Provenance :=
  t.entries.map (·.state)

def count (t : Table α) (state : Provenance) : Nat :=
  t.entries.countP (·.state == state)

/-- Every entry is cached.  The empty table counts as cached. -/
def isCached (t : Table α) : Bool :=
  t.entries.all (·.isCached)

/-- The table as the next run sees it when no input has changed. -/
def settled (t : Table α) : Table α :=
  ⟨t.values.map Entry.ofCached⟩

/-! ## Laws of the views -/

@[simp] theorem values_empty : (empty : Table α).values = [] := rfl

@[simp] theorem isCached_empty : (empty : Table α).isCached = true := rfl

@[simp] theorem live_map_ofCached (vs : List α) :
    live ⟨vs.map Entry.ofCached⟩ = vs.map Entry.ofCached := by
  induction vs with
  | nil => rfl
  | cons v vs ih =>
      simp only [live, List.map_cons] at ih ⊢
      rw [List.filter_cons_of_pos (by rfl), ih]

@[simp] theorem values_map_ofCached (vs : List α) :
    values ⟨vs.map Entry.ofCached⟩ = vs := by
  simp [values, Entry.ofCached, Function.comp_def]

@[simp] theorem values_settled (t : Table α) : t.settled.values = t.values :=
  values_map_ofCached t.values

@[simp] theorem isCached_settled (t : Table α) : t.settled.isCached = true := by
  simp [isCached, settled, Entry.isCached, Entry.ofCached]

theorem ofCached_value {e : Entry α} (h : e.isCached = true) :
    Entry.ofCached e.value = e := by
  obtain ⟨v, s⟩ := e
  simp_all [Entry.isCached, Entry.ofCached]

theorem live_of_isCached {t : Table α} (h : t.isCached = true) :
    t.live = t.entries := by
  simp only [isCached, List.all_eq_true] at h
  refine List.filter_eq_self.2 fun e he => ?_
  rw [← ofCached_value (h e he)]
  rfl

theorem settled_of_isCached {t : Table α} (h : t.isCached = true) :
    t.settled = t := by
  have hall : ∀ e ∈ t.entries, Entry.ofCached e.value = e := by
    simp only [isCached, List.all_eq_true] at h
    exact fun e he => ofCached_value (h e he)
  rw [settled, values, live_of_isCached h, List.map_map]
  exact congrArg Table.mk ((List.map_congr_left hall).trans (List.map_id _))

theorem settled_settled (t : Table α) : t.settled.settled = t.settled :=
  settled_of_isCached (isCached_settled t)

end Table

end Regen
