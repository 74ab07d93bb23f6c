import Regen.DataType
import Regen.Run.Journal
import Regen.Table.Basic

/-!
Plans.  Before a step calls its function it settles, input by input, which old
results will do.  An input that stands as it did may keep a result; every other
input is computed afresh.  `byPlace` looks for the old result at the same place
of the output, `byTree` for the one that belongs to the same tree.
-/

namespace Regen

open Syntax

/-- The inputs of a step in order, each with the old result that it keeps. -/
abbrev Plan (α β : Type) := List (α × Option β)

namespace Plan

variable {α β : Type}

def result (f : α → β) : α × Option β → β
  | (_, some b) => b
  | (a, none) => f a

def results (f : α → β) (p : Plan α β) : List β :=
  p.map (result f)

def items (treeOf : α → TreeId) (f : α → β) (p : Plan α β) :
    List (PerTree β) :=
  p.map fun x => ⟨treeOf x.1, result f x⟩

def computed (p : Plan α β) : Nat :=
  p.countP (·.2.isNone)

def journal (visit : α → Journal) (p : Plan α β) : Journal :=
  p.flatMap fun (a, kept) =>
    .poll ::
      match kept with
      | some _ => []
      | none => visit a

/--
A cached input keeps the result at its place, provided that the input at that
place was the same.  `old` pairs the old inputs with the old results.
-/
def byPlace (same : α → α → Bool) : (old : List (α × β)) →
    (inputs : List (Entry α)) → Plan α β
  | _, [] => []
  | [], e :: es => (e.value, none) :: byPlace same [] es
  | (a, b) :: old, e :: es =>
      (e.value, if e.isCached && same a e.value then some b else none) ::
        byPlace same old es

/-- The last item that belongs to a tree. -/
def itemOf? (items : List (PerTree β)) (tree : TreeId) : Option β :=
  (items.reverse.find? (·.tree == tree)).map (·.item)

def byTree (treeOf : α → TreeId) (usable : β → Bool)
    (old : List (PerTree β)) (inputs : List (Entry α)) : Plan α β :=
  inputs.map fun e =>
    (e.value,
      if e.isCached then (itemOf? old (treeOf e.value)).filter usable else none)

@[simp] theorem length_results (f : α → β) (p : Plan α β) :
    (p.results f).length = p.length := by
  simp [results]

@[simp] theorem length_items (treeOf : α → TreeId) (f : α → β)
    (p : Plan α β) : (p.items treeOf f).length = p.length := by
  simp [items]

@[simp] theorem map_fst_byPlace (same : α → α → Bool) (old : List (α × β))
    (inputs : List (Entry α)) :
    (byPlace same old inputs).map (·.1) = inputs.map (·.value) := by
  induction inputs generalizing old with
  | nil => simp [byPlace]
  | cons e es ih => cases old <;> simp [byPlace, ih]

@[simp] theorem map_fst_byTree (treeOf : α → TreeId) (usable : β → Bool)
    (old : List (PerTree β)) (inputs : List (Entry α)) :
    (byTree treeOf usable old inputs).map (·.1) = inputs.map (·.value) := by
  simp [byTree, Function.comp_def]

end Plan

end Regen
