import Regen.Syntax.Node
import Regen.Text.NameSet

/-!
Import aliases.  A using directive may give a name to a target; targets are kept
unqualified.  Aliases of global directives are in force in every file of the
compilation, the others only inside the scope that declares them.

A name may have several targets.  Between two sets of aliases, the changed names
are those whose sets of targets differ; order and repetition do not count.
-/

namespace Regen

open Syntax

structure Alias where
  name : String
  target : String
  deriving DecidableEq, Repr

namespace Alias

def ofUsing? (u : Using) : Option Alias :=
  u.aliasPair?.map fun (name, target) => ⟨name, target⟩

def locals (n : Node) : List Alias :=
  (n.usings.filter (!·.isGlobal)).filterMap ofUsing?

theorem mem_map_target {pairs : List Alias} {name target : String} :
    target ∈ (pairs.filter (·.name == name)).map (·.target) ↔
      ⟨name, target⟩ ∈ pairs := by
  simp only [List.mem_map, List.mem_filter, beq_iff_eq]
  constructor
  · rintro ⟨a, ⟨ha, rfl⟩, rfl⟩
    exact ha
  · exact fun h => ⟨⟨name, target⟩, ⟨h, rfl⟩, rfl⟩

end Alias

/-- Aliases that hold in the whole compilation, in the order of declaration. -/
structure AliasSet where
  pairs : List Alias := []
  deriving DecidableEq, Repr

namespace AliasSet

def ofRoot (root : Node) : AliasSet :=
  ⟨(root.usings.filter (·.isGlobal)).filterMap Alias.ofUsing?⟩

def concat (parts : List AliasSet) : AliasSet :=
  ⟨parts.flatMap (·.pairs)⟩

def targets (s : AliasSet) (name : String) : List String :=
  (s.pairs.filter (·.name == name)).map (·.target)

def names (s : AliasSet) : List String :=
  s.pairs.map (·.name)

def targetSet (s : AliasSet) (name : String) : List String :=
  Text.nameSet (s.targets name)

def changedNames (old new : AliasSet) : List String :=
  (Text.nameSet (old.names ++ new.names)).filter fun name =>
    old.targetSet name != new.targetSet name

theorem mem_targets {s : AliasSet} {name target : String} :
    target ∈ s.targets name ↔ ⟨name, target⟩ ∈ s.pairs :=
  Alias.mem_map_target

theorem targets_eq_nil {s : AliasSet} {name : String} (h : name ∉ s.names) :
    s.targets name = [] := by
  simp only [names, List.mem_map, not_exists, not_and] at h
  simp only [targets, List.map_eq_nil_iff, List.filter_eq_nil_iff, beq_iff_eq]
  exact h

theorem mem_changedNames {old new : AliasSet} {name : String} :
    name ∈ changedNames old new ↔ old.targetSet name ≠ new.targetSet name := by
  simp only [changedNames, List.mem_filter, Text.mem_nameSet, List.mem_append,
    bne_iff_ne, and_iff_right_iff_imp]
  intro h
  by_cases ho : name ∈ old.names
  · exact .inl ho
  · refine .inr (Classical.byContradiction fun hn => h ?_)
    rw [targetSet, targetSet, targets_eq_nil ho, targets_eq_nil hn]

end AliasSet

end Regen
