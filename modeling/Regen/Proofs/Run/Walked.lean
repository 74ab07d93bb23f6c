import Regen.Proofs.Marker.Marked
import Regen.Proofs.Run.Reuse

/-!
# Files that are walked again, and files that are not

A file that stands as it stood keeps what was found in it: the items of a
filter, its global aliases and, unless a name that the scan looked up has got
other targets, its scan.  All of this goes by the identifiers of the trees.
-/

namespace Regen

open List (Forall₂)
open Syntax

variable {β : Type}

structure Stands (old new : Table Tree) : Prop where
  ids : (old.values.map (·.id)).Nodup
  stands : ∀ e ∈ new.live, e.isCached = true → e.value ∈ old.values

/-- The input tables, where the files that remain keep their order. -/
structure Succeeds (old new : Table Tree) : Prop where
  ids : (old.values.map (·.id)).Nodup
  order : SameOrder (old.values.map (·.id)) (new.values.map (·.id))
  stands : ∀ e ∈ new.live, e.isCached = true → e.value ∈ old.values
  kept : new.isCached = true → new.values = old.values

/-- What `map` makes of the accepted nodes of a file, in document order. -/
def mappedIn (accepts : Node → Bool) (map : Tree → Node → β) (t : Tree) :
    List β :=
  (t.root.inOrder.filter accepts).map (map t)

private theorem Succeeds.toStands {old new : Table Tree} (h : Succeeds old new) :
    Stands old new :=
  ⟨h.ids, h.stands⟩

def Itemised (P : Tree → β → Prop) : List (PerTree β) → List Tree → Prop :=
  Forall₂ fun item t => item.tree = t.id ∧ P t item.item

namespace Itemised

variable {P : Tree → β → Prop} {items : List (PerTree β)} {trees : List Tree}

theorem map_tree (h : Itemised P items trees) :
    items.map (·.tree) = trees.map (·.id) := by
  induction h with
  | nil => rfl
  | cons h _ ih => rw [List.map_cons, List.map_cons, h.1, ih]

private theorem of_mem (h : Itemised P items trees) {item : PerTree β}
    (hitem : item ∈ items) : ∃ t ∈ trees, P t item.item := by
  induction h with
  | nil => simp at hitem
  | @cons first t items trees hfirst _ ih =>
      rcases List.mem_cons.1 hitem with rfl | hitem
      · exact ⟨t, by simp, hfirst.2⟩
      · obtain ⟨t', ht', hP⟩ := ih hitem
        exact ⟨t', by simp [ht'], hP⟩

private theorem of_stands {oldInput input : Table Tree} (hin : Stands oldInput input)
    (h : Itemised P items oldInput.values) {t : Tree}
    (ht : t ∈ oldInput.values) {b : β}
    (hb : Plan.itemOf? items t.id = some b) : P t b := by
  obtain ⟨t', ht', hid, hP⟩ := Plan.itemOf?_some h hb
  have hsame : t' = t := List.inj_on_of_nodup_map hin.ids ht' ht hid
  rwa [hsame] at hP

end Itemised

namespace Work

/-! ## Inputs -/

section Inputs

variable {input : List Tree} {old : Option (Table Tree)}

theorem trees_stands (ids : ((old.getD .empty).values.map (·.id)).Nodup) :
    Stands (old.getD .empty) (trees input old).tables where
  ids := ids
  stands _ he hcached := Table.mem_values_of_isCached_diffOn he hcached

theorem trees_succeeds (ids : ((old.getD .empty).values.map (·.id)).Nodup)
    (order : SameOrder ((old.getD .empty).values.map (·.id))
      (input.map (·.id))) :
    Succeeds (old.getD .empty) (trees input old).tables where
  ids := ids
  order := by
    rw [values_trees]
    exact order
  stands := (trees_stands ids).stands
  kept hcached := Table.values_diffOn_of_isCached ids order hcached

end Inputs

section Texts

variable {known : TextFile → Prop} {input : List TextFile}
  {old : Option (Table TextFile)}

theorem values_texts_of_known (free : CollisionFree known)
    (hold : ∀ t ∈ (old.getD .empty).values, known t)
    (hinput : ∀ t ∈ input, known t) :
    (texts input old).tables.values = input := by
  refine Table.values_diffOn fun t ht u hu _ hsame => ?_
  exact ((Decides.text free).of_same ⟨rfl, hold t ht⟩ ⟨rfl, hinput u hu⟩
    hsame).1

theorem kept_texts (paths : ((old.getD .empty).values.map (·.path)).Nodup)
    (order : SameOrder ((old.getD .empty).values.map (·.path))
      (input.map (·.path)))
    (h : (texts input old).tables.isCached = true) :
    (texts input old).tables.values = (old.getD .empty).values :=
  Table.values_diffOn_of_isCached paths order h

end Texts

variable {site : Site} {oldInput input : Table Tree}

/-! ## Filters -/

section Filter

variable {RB : β → β → Prop} {sameOut : β → β → Bool}
  {accepts : Node → Bool} {map : Tree → Node → β}

theorem accepted_eq_mappedIn :
    accepted accepts map = mappedIn accepts map := by
  funext t
  rw [accepted, mappedIn, Node.preorder_eq_inOrder]

def Contributes (RB : β → β → Prop) (accepts : Node → Bool)
    (map : Tree → Node → β) (t : Tree) (bs : List β) : Prop :=
  Forall₂ RB bs (mappedIn accepts map t)

private theorem self_mappedIn (hmap : ∀ t n, RB (map t n) (map t n)) (t : Tree) :
    Contributes RB accepts map t (mappedIn accepts map t) :=
  List.forall₂_same.2 fun b hb => by
    obtain ⟨n, -, rfl⟩ := List.mem_map.1 hb
    exact hmap t n

private theorem forall₂_items {items : List (PerTree (List β))} {trees : List Tree}
    (h : Itemised (Contributes RB accepts map) items trees) :
    Forall₂ RB (items.flatMap (·.item))
      (trees.flatMap (mappedIn accepts map)) := by
  rw [List.flatMap_def, List.flatMap_def]
  refine List.rel_flatten ?_
  rw [List.forall₂_map_left_iff, List.forall₂_map_right_iff]
  exact h.imp fun _ _ hitem => hitem.2

private theorem itemised_diffOn {old : Table (PerTree (List β))}
    {items : List (PerTree (List β))} {trees : List Tree}
    (dOut : Decides RB sameOut)
    (hold : ∀ item ∈ old.values, Forall₂ RB item.item item.item)
    (h : Itemised (Contributes RB accepts map) items trees) :
    Itemised (Contributes RB accepts map)
      (Table.diffOn (·.tree) (fun a b => sameList sameOut a.item b.item) old
        items).values trees :=
  Table.forall₂_values_diffOn h fun item hitem _ _ hct hkey heq =>
    have halike := dOut.list.of_same (hold item hitem)
      (dOut.list.left hct.2) heq
    ⟨hkey.trans hct.1, dOut.list.trans halike hct.2⟩

theorem values_filter {oldItems : Option (Table (PerTree (List β)))}
    {old : Option (Table β)} (dOut : Decides RB sameOut)
    (hmap : ∀ t n, RB (map t n) (map t n)) (hin : Succeeds oldInput input)
    (hitems : ∀ t, oldItems = some t →
      Itemised (Contributes RB accepts map) t.values oldInput.values)
    (hold : ∀ t, old = some t → Forall₂ RB t.values
      (oldInput.values.flatMap (mappedIn accepts map))) :
    let new := filter site sameOut accepts map input oldItems old
    Itemised (Contributes RB accepts map) new.tables.1.values input.values ∧
      Forall₂ RB new.tables.2.values
        (input.values.flatMap (mappedIn accepts map)) := by
  refine values_unlessIdle₂ (P := fun items values =>
      Itemised (Contributes RB accepts map) items input.values ∧
        Forall₂ RB values (input.values.flatMap (mappedIn accepts map)))
    (fun t u ht hu hidle => ?_) ?_
  · rw [hin.kept hidle]
    exact ⟨hitems t ht, hold u hu⟩
  · rw [accepted_eq_mappedIn]
    have planned : Itemised (Contributes RB accepts map)
        ((Plan.byTree (·.id) (fun _ => true) (oldItems.getD .empty).values
          input.live).items (·.id) (mappedIn accepts map)) input.values := by
      refine Plan.forall₂_items_byTree (fun e he hcached b hb _ => ?_)
        fun e _ => self_mappedIn hmap e.value
      cases oldItems with
      | none => simp [Plan.itemOf?] at hb
      | some t =>
          exact (hitems t rfl).of_stands hin.toStands
            (hin.stands e he hcached) hb
    have hselfItems : ∀ item ∈ (oldItems.getD .empty).values,
        Forall₂ RB item.item item.item := by
      refine self_getD
        (R := fun a b : PerTree (List β) => Forall₂ RB a.item b.item)
        fun t ht item hitem => ?_
      obtain ⟨tree, -, hcontributes⟩ := (hitems t ht).of_mem hitem
      exact dOut.list.left hcontributes
    have items := itemised_diffOn dOut hselfItems planned
    have hself := self_getD fun t ht => dOut.self_of_mem (hold t ht)
    exact ⟨items, dOut.values_diff hself (forall₂_items items)⟩

theorem kept_filter {oldItems : Option (Table (PerTree (List β)))}
    {old : Option (Table β)}
    (h : (filter site sameOut accepts map input oldItems
      old).tables.2.isCached = true) :
    (filter site sameOut accepts map input oldItems old).tables.2.values =
      (old.getD .empty).values :=
  kept_unlessIdle₂ (fun _ _ => Table.values_diff_of_isCached) h

end Filter

end Work

/-! ## Marker selectors -/

/-- The aliases that a file declares at its root for the whole compilation. -/
def globalsIn (root : Node) : List Alias :=
  root.usings.filterMap fun u =>
    if u.isGlobal then u.aliasName.map (⟨·, unqualified u.name⟩) else none

def globalsOf (trees : List Tree) : AliasSet :=
  ⟨trees.flatMap fun t => globalsIn t.root⟩

open Classical in
/-- The nodes at the marked places of the files, file by file. -/
noncomputable def markedIn (marker : Marker) (shape : Shape)
    (trees : List Tree) : List Marked :=
  trees.flatMap fun t =>
    ((t.root.places.filter fun place =>
      marker.Selects shape { globals := globalsOf trees } t.root place).filterMap
        t.root.at?).map (⟨t.id, ·⟩)

theorem AliasSet.pairs_ofRoot (root : Node) :
    (AliasSet.ofRoot root).pairs = globalsIn root := by
  rw [ofRoot, globalsIn, List.filterMap_filter]
  refine congrArg (List.filterMap · _) (funext fun u => ?_)
  cases h : u.aliasName <;> simp [Alias.ofUsing?, Using.aliasPair?, h]

theorem AliasSet.concat_ofRoot (trees : List Tree) :
    AliasSet.concat (trees.map fun t => AliasSet.ofRoot t.root) =
      globalsOf trees := by
  simp only [concat, globalsOf, List.flatMap_map, pairs_ofRoot]

theorem flatMap_scanFile (marker : Marker) (shape : Shape)
    (trees : List Tree) :
    (trees.flatMap fun t =>
      (marker.scanFile shape (globalsOf trees) t.root).nodes.map (⟨t.id, ·⟩)) =
        markedIn marker shape trees := by
  refine List.flatMap_congr fun t _ => congrArg (List.map _) ?_
  exact Node.eq_filterMap_of_map_some
    (Marker.map_some_scanNode { globals := globalsOf trees } t.root)

def DeclaredIn (t : Tree) (aliases : AliasSet) : Prop :=
  aliases = AliasSet.ofRoot t.root

/--
A scan of the file, perhaps under other global aliases; these give every name
that it looked up the targets that the name has now.
-/
def StandsFor (marker : Marker) (shape : Shape) (globals : AliasSet)
    (root : Node) (scan : Scan) : Prop :=
  ∃ before, scan = marker.scanFile shape before root ∧
    AliasSet.AgreeOn scan.consulted before globals

namespace StandsFor

variable {marker : Marker} {shape : Shape} {globals globals' : AliasSet}
  {root : Node} {scan : Scan}

private theorem nodes_eq (h : StandsFor marker shape globals root scan) :
    scan.nodes = (marker.scanFile shape globals root).nodes := by
  obtain ⟨before, rfl, agree⟩ := h
  exact (Marker.nodes_scanFile_congr agree).symm

theorem refl (marker : Marker) (shape : Shape) (globals : AliasSet)
    (root : Node) :
    StandsFor marker shape globals root
      (marker.scanFile shape globals root) :=
  ⟨globals, rfl, fun _ _ => rfl⟩

theorem trans (h : StandsFor marker shape globals root scan)
    (agree : AliasSet.AgreeOn scan.consulted globals globals') :
    StandsFor marker shape globals' root scan := by
  obtain ⟨before, hscan, hbefore⟩ := h
  exact ⟨before, hscan, fun name hname =>
    (hbefore name hname).trans (agree name hname)⟩

end StandsFor

def OldMarkerTables.aliasSet (old : OldMarkerTables) : AliasSet :=
  (old.globals.bind (·.single?)).getD {}

structure OldMarkerTables.RightFor (old : OldMarkerTables) (marker : Marker)
    (shape : Shape) (trees : List Tree) : Prop where
  aliases : Itemised DeclaredIn (old.aliases.getD .empty).values trees
  units : (old.units.getD .empty).values =
    trees.map fun t => ⟨t.id, t.root⟩
  globals : old.aliasSet = globalsOf trees
  found : Itemised (fun t => StandsFor marker shape (globalsOf trees) t.root)
    (old.found.getD .empty).values trees
  output : ∀ t, old.output = some t → t.values = markedIn marker shape trees

theorem Itemised.concat {items : List (PerTree AliasSet)} {trees : List Tree}
    (h : Itemised DeclaredIn items trees) :
    AliasSet.concat (items.map (·.item)) = globalsOf trees := by
  rw [← AliasSet.concat_ofRoot]
  refine congrArg AliasSet.concat ?_
  rw [← List.forall₂_eq_eq_eq, List.forall₂_map_left_iff,
    List.forall₂_map_right_iff]
  exact h.imp fun _ _ hitem => hitem.2

def Finds (marker : Marker) (shape : Shape) (globals : AliasSet) (t : Tree)
    (scan : Scan) : Prop :=
  scan.nodes = (marker.scanFile shape globals t.root).nodes

theorem Itemised.finds {marker : Marker} {shape : Shape} {globals : AliasSet}
    {scans : List (PerTree Scan)} {trees : List Tree}
    (h : Itemised (fun t => StandsFor marker shape globals t.root) scans trees) :
    Itemised (Finds marker shape globals) scans trees :=
  List.Forall₂.imp (fun _ _ hscan => ⟨hscan.1, hscan.2.nodes_eq⟩) h

theorem Itemised.foundIn {marker : Marker} {shape : Shape} {trees : List Tree}
    {scans : List (PerTree Scan)}
    (h : Itemised (Finds marker shape (globalsOf trees)) scans trees) :
    Work.foundIn scans = markedIn marker shape trees := by
  have hsame : Forall₂ (fun s t =>
      (s.item.nodes.map fun n => (⟨s.tree, n⟩ : Marked)) =
        (marker.scanFile shape (globalsOf trees) t.root).nodes.map
          (⟨t.id, ·⟩)) scans trees :=
    List.Forall₂.imp (fun s t ⟨htree, hnodes⟩ => by rw [hnodes, htree]) h
  rw [Work.foundIn, ← flatMap_scanFile, List.flatMap_def, List.flatMap_def]
  refine congrArg List.flatten ?_
  rw [← List.forall₂_eq_eq_eq, List.forall₂_map_left_iff,
    List.forall₂_map_right_iff]
  exact hsame

namespace Work

variable {site : Site} {marker : Marker} {shape : Shape}
  {oldInput input : Table Tree}

section

variable {old : Option (Table (PerTree AliasSet))}
  (hold : Itemised DeclaredIn (old.getD .empty).values oldInput.values)

include hold

theorem itemised_fileAliases (hin : Stands oldInput input) :
    Itemised DeclaredIn (fileAliases input old).tables.values
      input.values := by
  rw [fileAliases, Table.values_diffOn_of_lawful]
  exact Plan.forall₂_items_byTree
    (fun e he hcached b hb _ =>
      hold.of_stands hin (hin.stands e he hcached) hb)
    fun _ _ => rfl

private theorem globalsOf_of_isCached (hin : Succeeds oldInput input)
    (h : (fileAliases input old).tables.isCached = true) :
    globalsOf oldInput.values = globalsOf input.values := by
  have hnew := itemised_fileAliases hold hin.toStands
  have hkept : (fileAliases input old).tables.values =
      (old.getD .empty).values := by
    refine Table.values_diffOn_of_isCached ?_ ?_ h
    · rw [hold.map_tree]
      exact hin.ids
    · have horder : SameOrder (oldInput.values.map (·.id))
          ((input.live.map (·.value)).map (·.id)) := hin.order
      rw [List.map_map] at horder
      rw [hold.map_tree, Plan.map_tree_items_byTree]
      exact horder
  rw [← hold.concat, ← hnew.concat, hkept]

end

theorem single_globalAliases {P : AliasSet → Prop}
    {aliases : Table (PerTree AliasSet)} {old : Option (Table AliasSet)}
    (hnew : P (AliasSet.concat (aliases.values.map (·.item))))
    (hold : aliases.isCached = true → P ((old.bind (·.single?)).getD {})) :
    P ((globalAliases aliases old).tables.single?.getD {}) := by
  refine values_unlessIdle (P := fun values => P (values.head?.getD {}))
    (fun t ht hidle => ?_) ?_
  · rw [Bool.and_eq_true] at hidle
    have holds := hold hidle.1
    rwa [ht] at holds
  · rw [Table.values_diff_of_lawful]
    exact hnew

theorem agreeOn_of_unchanged {aliases : Table (PerTree AliasSet)}
    {old : Option (Table AliasSet)} {looked : List String}
    (h : ∀ name ∈ looked,
      name ∉ changedNames old (globalAliases aliases old).tables) :
    AliasSet.AgreeOn looked ((old.bind (·.single?)).getD {})
      ((globalAliases aliases old).tables.single?.getD {}) := by
  intro name hname
  have hunchanged := h name hname
  unfold changedNames at hunchanged
  split at hunchanged
  · next hcached =>
    have hkept : (globalAliases aliases old).tables.values =
        (old.getD .empty).values :=
      kept_unlessIdle (fun _ => Table.values_diff_of_isCached) hcached
    have hsingle : (globalAliases aliases old).tables.single? =
        old.bind (·.single?) := by
      rw [Table.single?, hkept]
      cases old <;> rfl
    rw [hsingle]
  · by_contra hne
    exact hunchanged (AliasSet.mem_changedNames.2 hne)

theorem itemised_scans {before globals : AliasSet} {changed : List String}
    {oldUnits : Option (Table (PerTree Node))}
    {old : Option (Table (PerTree Scan))} (hin : Stands oldInput input)
    (hunits : (oldUnits.getD .empty).values =
      oldInput.values.map fun t => ⟨t.id, t.root⟩)
    (hold : Itemised (fun t => StandsFor marker shape before t.root)
      (old.getD .empty).values oldInput.values)
    (agree : ∀ looked : List String, (∀ name ∈ looked, name ∉ changed) →
      AliasSet.AgreeOn looked before globals) :
    Itemised (fun t => StandsFor marker shape globals t.root)
      (scans site (marker.scanFile shape globals) changed
        (fileRoots input oldUnits).tables old).tables.values
      input.values := by
  rw [scans, Table.values_diffOn_of_lawful]
  have planned : Forall₂ (fun item (unit : PerTree Node) =>
        item.tree = unit.tree ∧ StandsFor marker shape globals unit.item item.item)
      ((Plan.byTree (·.tree) (untouched changed) (old.getD .empty).values
        (fileRoots input oldUnits).tables.live).items (·.tree)
          fun unit => marker.scanFile shape globals unit.item)
      (fileRoots input oldUnits).tables.values := by
    refine Plan.forall₂_items_byTree
      (P := fun unit : PerTree Node =>
        StandsFor marker shape globals unit.item)
      (fun e he hcached scan hscan husable => ?_)
      fun e _ => .refl ..
    have hunit := Table.mem_values_of_isCached_diffOn he hcached
    rw [hunits] at hunit
    obtain ⟨t, ht, hroot⟩ := List.mem_map.1 hunit
    rw [← hroot] at hscan ⊢
    refine (hold.of_stands hin ht hscan).trans (agree _ fun name hname => ?_)
    simpa using List.all_eq_true.1 husable name hname
  rw [values_fileRoots, List.forall₂_map_right_iff] at planned
  exact planned

private theorem kept_scans {scan : Node → Scan} {changed : List String}
    {oldUnits : Option (Table (PerTree Node))}
    {old : Option (Table (PerTree Scan))} (hin : Succeeds oldInput input)
    (hold : (old.getD .empty).values.map (·.tree) =
      oldInput.values.map (·.id))
    (h : (scans site scan changed (fileRoots input oldUnits).tables
      old).tables.isCached = true) :
    (scans site scan changed (fileRoots input oldUnits).tables
      old).tables.values = (old.getD .empty).values := by
  refine Table.values_diffOn_of_isCached ?_ ?_ h
  · rw [hold]
    exact hin.ids
  · rw [hold, Plan.map_tree_items_byTree, map_tree_fileRoots]
    exact hin.order

section Marked

variable {old : OldMarkerTables} (hin : Succeeds oldInput input)
  (hold : old.RightFor marker shape oldInput.values)

include hin hold

private theorem globalAliases_rightFor :
    (globalAliases (fileAliases input old.aliases).tables
      old.globals).tables.single?.getD {} = globalsOf input.values := by
  have haliases := itemised_fileAliases hold.aliases hin.toStands
  refine single_globalAliases (P := (· = globalsOf input.values))
    haliases.concat fun hcached => ?_
  rw [← globalsOf_of_isCached hold.aliases hin hcached]
  exact hold.globals

private theorem found_rightFor :
    Itemised (fun t => StandsFor marker shape (globalsOf input.values) t.root)
      (marked site marker shape input old).tables.1.found.values
      input.values := by
  have hglobals := globalAliases_rightFor hin hold
  have agree : ∀ looked : List String,
      (∀ name ∈ looked, name ∉ changedNames old.globals
        (globalAliases (fileAliases input old.aliases).tables
          old.globals).tables) →
      AliasSet.AgreeOn looked (globalsOf oldInput.values)
        (globalsOf input.values) := by
    intro looked hlooked
    rw [← hold.globals, ← hglobals]
    exact agreeOn_of_unchanged hlooked
  change Itemised _ (scans site (marker.scanFile shape
    ((globalAliases _ _).tables.single?.getD {})) _ _ _).tables.values _
  rw [hglobals]
  exact itemised_scans hin.toStands hold.units hold.found agree

/-- A marker selector leaves tables that are right for the trees of this run. -/
theorem marked_rightFor :
    (marked site marker shape input old).tables.1.toOld.RightFor marker shape
      input.values where
  aliases := itemised_fileAliases hold.aliases hin.toStands
  units := values_fileRoots _
  globals := globalAliases_rightFor hin hold
  found := found_rightFor hin hold
  output := by
    intro t ht
    have hfound : foundIn
        (marked site marker shape input old).tables.1.found.values =
          markedIn marker shape input.values :=
      (found_rightFor hin hold).finds.foundIn
    rw [← Option.some.inj ht]
    refine values_unlessIdle (P := (· = markedIn marker shape input.values))
      (fun u hu hidle => ?_) ?_
    · have hkept := kept_scans hin hold.found.map_tree hidle
      rw [hold.output u hu, ← hold.found.finds.foundIn, ← hkept]
      exact hfound
    · rw [Table.values_diff_of_lawful]
      exact hfound

omit hin hold in
theorem kept_marked
    (h : (marked site marker shape input old).tables.1.output.isCached = true) :
    (marked site marker shape input old).tables.1.output.values =
      (old.output.getD .empty).values :=
  kept_unlessIdle (fun _ => Table.values_diff_of_isCached) h

end Marked

end Work

end Regen
