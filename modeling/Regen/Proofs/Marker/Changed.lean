import Mathlib.Data.List.Induction
import Mathlib.Data.Set.Basic
import Regen.Proofs.Marker.Targets

/-!
# Which names have changed

Between two sets of aliases, the changed names are exactly those for which the
two declare different targets, where a name that is not declared has none.  They
behave like a distance: the same either way, none exactly between sets that
declare the same aliases, and those from a first set to a third lie among those
on the way over a second.

Two passes over indexes find them.  The first goes through the old names and
compares targets, the second looks for new names alone; neither is enough by
itself.
-/

namespace Regen

namespace AliasSet

/-- The targets that are declared for a name. -/
def targetsOf (s : AliasSet) (name : String) : Set String :=
  {target | ⟨name, target⟩ ∈ s.pairs}

variable {old new s s' : AliasSet} {name : String}

private theorem mem_targetsOf {target : String} :
    target ∈ s.targetsOf name ↔ target ∈ s.targets name :=
  mem_targets.symm

private theorem targetSet_eq_iff :
    s.targetSet name = s'.targetSet name ↔
      s.targetsOf name = s'.targetsOf name := by
  simp only [Set.ext_iff, mem_targetsOf]
  constructor
  · intro h target
    rw [← mem_targetSet, h, mem_targetSet]
  · exact Text.nameSet_congr

private theorem sameAliases_iff :
    s.SameAliases s' ↔ ∀ name, s.targetsOf name = s'.targetsOf name :=
  ⟨fun h name => Set.ext fun target => h ⟨name, target⟩,
    fun h a => Set.ext_iff.1 (h a.name) a.target⟩

private theorem mem_changedNames_iff_targetsOf :
    name ∈ changedNames old new ↔ old.targetsOf name ≠ new.targetsOf name :=
  mem_changedNames.trans targetSet_eq_iff.not

private theorem pairwise_changedNames (old new : AliasSet) :
    (changedNames old new).Pairwise (· < ·) :=
  (Text.pairwise_nameSet _).filter _

private theorem changedNames_comm (old new : AliasSet) :
    changedNames old new = changedNames new old := by
  refine (pairwise_changedNames old new).eq_of_mem_iff
    (pairwise_changedNames new old) fun {name} => ?_
  rw [mem_changedNames, mem_changedNames, ne_comm]

private theorem changedNames_eq_nil_iff :
    changedNames old new = [] ↔ old.SameAliases new := by
  simp only [List.eq_nil_iff_forall_not_mem, sameAliases_iff,
    mem_changedNames_iff_targetsOf, not_not]

private theorem changedNames_subset_append (old new third : AliasSet) :
    changedNames old third ⊆
      changedNames old new ++ changedNames new third := by
  intro name h
  rw [mem_changedNames] at h
  rw [List.mem_append, mem_changedNames, mem_changedNames]
  by_contra! hboth
  exact h (hboth.1.trans hboth.2)

/-! ## Two passes over indexes -/

abbrev Index := Std.HashMap String (List String)

namespace Index

variable {old new : Index}

def notKept (old new : Index) : List String :=
  (old.toList.filter fun (name, targets) => new[name]? != some targets).map
    (·.1)

def added (old new : Index) : List String :=
  new.keys.filter fun name => !old.contains name

private theorem mem_notKept :
    name ∈ notKept old new ↔ name ∈ old ∧ new[name]? ≠ old[name]? := by
  simp only [notKept, List.mem_map, List.mem_filter, bne_iff_ne, Prod.exists,
    Std.HashMap.mem_toList_iff_getElem?_eq_some, exists_and_right,
    exists_eq_right]
  rw [Std.HashMap.mem_iff_isSome_getElem?, Option.isSome_iff_exists]
  constructor
  · rintro ⟨targets, hold, hne⟩
    exact ⟨⟨targets, hold⟩, hold ▸ hne⟩
  · rintro ⟨⟨targets, hold⟩, hne⟩
    exact ⟨targets, hold, hold ▸ hne⟩

private theorem mem_added : name ∈ added old new ↔ name ∈ new ∧ name ∉ old := by
  simp [added]

/-- Between them, the two passes miss no name and report none in vain. -/
theorem mem_passes :
    name ∈ notKept old new ++ added old new ↔ old[name]? ≠ new[name]? := by
  rw [List.mem_append, mem_notKept, mem_added]
  by_cases hold : name ∈ old
  · simp [hold, ne_comm]
  · -- a name that the old index lacks shows in the second pass alone
    rw [Std.HashMap.getElem?_eq_none hold, ne_comm (a := none),
      Option.ne_none_iff_isSome, ← Std.HashMap.mem_iff_isSome_getElem?]
    simp [hold]

end Index

def index (s : AliasSet) : Index :=
  s.pairs.foldl (fun index a =>
    index.alter a.name fun targets => some (targets.getD [] ++ [a.target])) ∅

def setIndex (s : AliasSet) : Index :=
  s.index.map fun _ targets => Text.nameSet targets

private theorem index_concat (pairs : List Alias) (a : Alias) :
    index ⟨pairs ++ [a]⟩ = (index ⟨pairs⟩).alter a.name fun targets =>
      some (targets.getD [] ++ [a.target]) :=
  List.foldl_concat ..

private theorem targets_concat (pairs : List Alias) (a : Alias) :
    targets ⟨pairs ++ [a]⟩ name =
      targets ⟨pairs⟩ name ++ if a.name = name then [a.target] else [] := by
  simp only [targets, List.filter_append, List.map_append]
  by_cases hname : a.name = name <;> simp [hname]

private theorem getElem?_index (s : AliasSet) (name : String) :
    s.index[name]? =
      if name ∈ s.names then some (s.targets name) else none := by
  obtain ⟨pairs⟩ := s
  -- the last alias is added to an index of those in front of it
  induction pairs using List.reverseRecOn with
  | nil => simp [index, names]
  | append_singleton pairs a ih =>
      rw [index_concat, Std.HashMap.getElem?_alter, targets_concat]
      by_cases hname : a.name = name
      · have hbefore : (index ⟨pairs⟩)[name]?.getD [] =
            targets ⟨pairs⟩ name := by
          rw [ih]
          split
          · rfl
          · next hnew => exact (targets_eq_nil hnew).symm
        subst hname
        rw [if_pos (by simp), if_pos (by simp [names]), hbefore, if_pos rfl]
      · simp [hname, ih, names, Ne.symm hname]

private theorem targetSet_eq_nil_iff : s.targetSet name = [] ↔ name ∉ s.names := by
  simp only [List.eq_nil_iff_forall_not_mem, mem_targetSet, mem_targets]
  constructor
  · intro h hname
    obtain ⟨a, ha, rfl⟩ := List.mem_map.1 hname
    exact h a.target ha
  · exact fun h target htarget => h (List.mem_map_of_mem htarget)

private theorem getElem?_setIndex (s : AliasSet) (name : String) :
    s.setIndex[name]? =
      if s.targetSet name = [] then none else some (s.targetSet name) := by
  rw [setIndex, Std.HashMap.getElem?_map, getElem?_index]
  by_cases hname : name ∈ s.names
  · rw [if_pos hname, if_neg (targetSet_eq_nil_iff.not_left.2 hname)]
    rfl
  · rw [if_neg hname, if_pos (targetSet_eq_nil_iff.2 hname)]
    rfl

private theorem getElem?_setIndex_eq_iff :
    old.setIndex[name]? = new.setIndex[name]? ↔
      old.targetSet name = new.targetSet name := by
  rw [getElem?_setIndex, getElem?_setIndex]
  constructor
  · intro h
    split_ifs at h with hold hnew
    · rw [hold, hnew]
    · exact Option.some.inj h
  · intro h
    rw [h]

private theorem mem_changedNames_iff_passes :
    name ∈ changedNames old new ↔
      name ∈ Index.notKept old.setIndex new.setIndex ++
        Index.added old.setIndex new.setIndex := by
  rw [Index.mem_passes, mem_changedNames, ne_eq, ne_eq,
    getElem?_setIndex_eq_iff]

/--
The changed names are exactly those with other targets, and exactly those that
the two passes over the indexes find.  They are the same either way, there are
none exactly if both sets declare the same aliases, whatever their order and
number, and those to a third set lie among those on the way over a second.
-/
theorem changedNames_tell_targets_apart (old new : AliasSet) :
    (∀ name, name ∈ changedNames old new ↔
      old.targetsOf name ≠ new.targetsOf name) ∧
    (∀ name, name ∈ changedNames old new ↔
      name ∈ Index.notKept old.setIndex new.setIndex ++
        Index.added old.setIndex new.setIndex) ∧
    changedNames old new = changedNames new old ∧
    (changedNames old new = [] ↔ old.SameAliases new) ∧
    ∀ third, changedNames old third ⊆
      changedNames old new ++ changedNames new third :=
  ⟨fun _ => mem_changedNames_iff_targetsOf,
    fun _ => mem_changedNames_iff_passes, changedNames_comm old new,
    changedNames_eq_nil_iff, changedNames_subset_append old new⟩

-- other targets, no more targets and new ones; order and number do not count
example :
    changedNames ⟨[⟨"A", "X"⟩, ⟨"B", "Y"⟩, ⟨"B", "Q"⟩, ⟨"C", "Z"⟩]⟩
      ⟨[⟨"B", "Q"⟩, ⟨"B", "Y"⟩, ⟨"A", "W"⟩, ⟨"B", "Q"⟩, ⟨"D", "Z"⟩]⟩ =
        ["A", "C", "D"] := by
  decide +kernel

end AliasSet

end Regen
