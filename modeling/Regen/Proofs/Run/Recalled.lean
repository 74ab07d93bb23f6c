import Regen.Proofs.Marker.Targets
import Regen.Proofs.Run.Faithful

/-!
# What a step remembers of every file

A filter keeps an item for each file that it read.  A marker selector keeps the
aliases of each file, its root and a scan of it that still stands, and a set of
global aliases with the targets of now.  A run over distinct files brings all of
this up to its own files, whatever their order.
-/

namespace Regen

open List (Forall₂)
open Syntax

structure OldMarkerTables.Recalls (old : OldMarkerTables) (marker : Marker)
    (shape : Shape) (trees : List Tree) : Prop where
  aliases : Itemised DeclaredIn (old.aliases.getD .empty).values trees
  units : (old.units.getD .empty).values =
    trees.map fun t => ⟨t.id, t.root⟩
  globals : ∀ name,
    old.aliasSet.targetSet name = (globalsOf trees).targetSet name
  found : Itemised (fun t => StandsFor marker shape (globalsOf trees) t.root)
    (old.found.getD .empty).values trees

private theorem Itemised.standsFor_congr {marker : Marker} {shape : Shape}
    {globals globals' : AliasSet} {scans : List (PerTree Scan)}
    {trees : List Tree}
    (same : ∀ name, globals.targetSet name = globals'.targetSet name)
    (h : Itemised (fun t => StandsFor marker shape globals t.root) scans trees) :
    Itemised (fun t => StandsFor marker shape globals' t.root) scans trees :=
  List.Forall₂.imp (fun _ _ hscan =>
    ⟨hscan.1, hscan.2.trans fun name _ => same name⟩) h

namespace Work

variable {site : Site} {oldInput input : Table Tree}

private theorem values_subset_of_isCached (hin : Stands oldInput input)
    (h : input.isCached = true) : input.values ⊆ oldInput.values := by
  intro t ht
  obtain ⟨e, he, rfl⟩ := List.mem_map.1 ht
  exact hin.stands e he (Table.isCached_of_mem_live h e he)

/-! ## Filters -/

private theorem mem_tree_filter {β : Type} {sameOut : β → β → Bool}
    {accepts : Node → Bool} {map : Tree → Node → β}
    {oldItems : Option (Table (PerTree (List β)))} {old : Option (Table β)}
    (hin : Stands oldInput input)
    (hitems : ∀ t ∈ oldInput.values,
      t.id ∈ (oldItems.getD .empty).values.map (·.tree)) :
    ∀ t ∈ input.values, t.id ∈ (filter site sameOut accepts map input oldItems
      old).tables.1.values.map (·.tree) := by
  refine values_unlessIdle₂
    (P := fun (items : List (PerTree (List β))) _ =>
      ∀ t ∈ input.values, t.id ∈ items.map (·.tree))
    (fun items _ hold _ hidle t ht => ?_) fun t ht => ?_
  · have hthere := hitems t (values_subset_of_isCached hin hidle ht)
    rwa [hold] at hthere
  · rw [Table.map_key_values_diffOn, Plan.map_tree_items_byTree]
    obtain ⟨e, he, rfl⟩ := List.mem_map.1 ht
    exact List.mem_map.2 ⟨e, he, rfl⟩

/-! ## Marker selectors -/

section Marked

variable {marker : Marker} {shape : Shape} {old : OldMarkerTables}
  (hin : Stands oldInput input)
  (hold : old.Recalls marker shape oldInput.values)

include hin hold

private theorem globalsOf_sameAliases
    (h : (fileAliases input old.aliases).tables.isCached = true) :
    (globalsOf oldInput.values).SameAliases (globalsOf input.values) := by
  have hnew := itemised_fileAliases hold.aliases hin
  have hnodup : ((old.aliases.getD .empty).values.map (·.tree)).Nodup := by
    rw [hold.aliases.map_tree]
    exact hin.ids
  rw [← hold.aliases.concat, ← hnew.concat]
  exact AliasSet.sameAliases_concat
    (List.map_subset _ (Table.values_subset_of_isCached_diffOn hnodup h))
    (List.map_subset _ (Table.subset_of_isCached_diffOn h).1)

private theorem targetSet_globalAliases (name : String) :
    ((globalAliases (fileAliases input old.aliases).tables
        old.globals).tables.single?.getD {}).targetSet name =
      (globalsOf input.values).targetSet name := by
  refine single_globalAliases
    (P := fun s => s.targetSet name = (globalsOf input.values).targetSet name)
    ?_ fun hcached => ?_
  · rw [(itemised_fileAliases hold.aliases hin).concat]
  · exact (hold.globals name).trans
      ((globalsOf_sameAliases hin hold hcached).targetSet_eq name)

theorem mem_changedNames_iff (name : String) :
    name ∈ changedNames old.globals
        (globalAliases (fileAliases input old.aliases).tables
          old.globals).tables ↔
      (globalsOf oldInput.values).targetSet name ≠
        (globalsOf input.values).targetSet name := by
  rw [← hold.globals, ← targetSet_globalAliases hin hold]
  constructor
  · intro hchanged
    unfold changedNames at hchanged
    split at hchanged
    · contradiction
    · exact AliasSet.mem_changedNames.1 hchanged
  · intro hne
    by_contra hunchanged
    have agree : AliasSet.AgreeOn [name] _ _ :=
      agreeOn_of_unchanged fun looked hlooked =>
        List.mem_singleton.1 hlooked ▸ hunchanged
    exact hne (agree name (List.mem_singleton_self name))

private theorem marked_recalls :
    (marked site marker shape input old).tables.1.toOld.Recalls marker shape
      input.values where
  aliases := itemised_fileAliases hold.aliases hin
  units := values_fileRoots _
  globals := targetSet_globalAliases hin hold
  found := by
    have hscans := hold.found.standsFor_congr fun name =>
      (hold.globals name).symm
    have hfound : Itemised _
        (marked site marker shape input old).tables.1.found.values
          input.values :=
      @itemised_scans site _ _ _ _ _ _ _ _ _ hin hold.units hscans
        fun _ hlooked => agreeOn_of_unchanged hlooked
    exact hfound.standsFor_congr (targetSet_globalAliases hin hold)

end Marked

end Work

/-! ## A whole store -/

variable {U : Type}

/-- What the step remembers of the files that it read. -/
def Step.Recalls (tables : Store (Carrier U)) (site : Site) : Step U → Prop
  | .filter input β _ _ => ∀ t ∈ tables.reading site.graph .tree input,
      t.id ∈ (tables.read (.perTree (.list β))
        ⟨site.graph, site.step, .perTree⟩).values.map (·.tree)
  | .marked input marker shape =>
      (tables.keptMarkers site).Recalls marker shape
        (tables.reading site.graph .tree input)
  | _ => True

namespace Store

structure Recalls (tables : Store (Carrier U)) (g : GraphId)
    (graph : Graph U) : Prop where
  ids : ∀ {id s}, graph.step? id = some s → s.step = .trees →
    ((tables.reading g .tree id).map (·.id)).Nodup
  step : ∀ {id s}, graph.step? id = some s → s.step.Recalls tables ⟨g, id⟩

theorem recalls_of_none {tables : Store (Carrier U)} {g : GraphId}
    (h : ∀ key, key.graph = g → tables.find? key = none) (graph : Graph U) :
    tables.Recalls g graph := by
  have hat : ∀ {type : DataType} {key : TableKey}, key.graph = g →
      tables.at? type key = none := by
    intro type key hkey
    rw [at?, h key hkey]
    rfl
  have hreading : ∀ {type : DataType} {id : StepId},
      tables.reading g type id = [] := by
    intro type id
    rw [reading, read, hat rfl]
    rfl
  refine ⟨fun _ _ => ?_, fun {id s} _ => ?_⟩
  · rw [hreading]
    exact List.nodup_nil
  · cases s.step with
    | filter input β accepts map =>
        rw [Step.Recalls, hreading]
        exact List.forall_mem_nil _
    | marked input marker shape =>
        rw [Step.Recalls, keptMarkers, hat rfl, hat rfl, hat rfl, hat rfl,
          hat rfl, hreading]
        exact ⟨.nil, rfl, fun _ => rfl, .nil⟩
    | _ => trivial

end Store

namespace RunContext

variable [BEq U] {r : RunContext U} {g : GraphId} {graph : Graph U}
  {tables : Store (Carrier U)} (w : graph.WellFormed)
  (h : r.full.Solves g graph tables) (hold : r.previous.Recalls g graph)

include w h

theorem Solves.read_trees {id : StepId} {s : GraphStep U}
    (hs : graph.step? id = some s) (hstep : s.step = .trees) :
    tables.read .tree (.output g id) =
      (Work.trees r.trees (r.previous.at? .tree (.output g id))).tables :=
  h.read_of_runs w hs hstep (disables_of_step r.full.options hstep rfl)
    (not_keeps_full s) .output .tree rfl

include hold

theorem Solves.stands {id : StepId} {s : GraphStep U}
    (hs : graph.step? id = some s) (hstep : s.step = .trees) :
    Stands (r.previous.read .tree (.output g id))
      (tables.read .tree (.output g id)) := by
  rw [h.read_trees w hs hstep]
  exact Work.trees_stands (hold.ids hs hstep)

/-- A run over distinct files leaves a store that remembers them. -/
theorem Solves.recalls (hids : (r.trees.map (·.id)).Nodup) :
    tables.Recalls g graph where
  ids := by
    intro id s hs hstep
    rw [Store.reading, h.read_trees w hs hstep, Work.values_trees]
    exact hids
  step := by
    intro id s hs
    have hrecalls := hold.step hs
    cases hstep : s.step with
    | filter input β accepts map =>
        obtain ⟨u, hu, hutrees⟩ := w.walked hs input (by rw [hstep]; rfl)
        have hread := h.read_of_runs w hs hstep
          (disables_of_step r.full.options hstep rfl) (not_keeps_full s)
          .perTree (.perTree (.list β)) rfl
        rw [hstep] at hrecalls
        rw [Step.Recalls, hread]
        exact Work.mem_tree_filter (h.stands w hold hu hutrees) hrecalls
    | marked input marker shape =>
        obtain ⟨u, hu, hutrees⟩ := w.walked hs input (by rw [hstep]; rfl)
        have hfind := h.find?_of_runs w hs
          (disables_of_step r.full.options hstep rfl) (not_keeps_full s)
        rw [hstep] at hrecalls hfind
        have hkept := Step.keptMarkers_evaluate
          (c := r.full.stepContext g id tables) hfind
        rw [Step.Recalls, show tables.keptMarkers ⟨g, id⟩ = _ from hkept]
        exact Work.marked_recalls (h.stands w hold hu hutrees) hrecalls
    | _ => trivial

end RunContext

end Regen
