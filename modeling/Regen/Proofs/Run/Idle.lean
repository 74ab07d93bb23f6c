import Regen.Proofs.Run.Evaluate
import Regen.Proofs.Table.Pairing

/-!
# Steps whose inputs have not changed

A run over the trees and texts of the last run, in whatever order, finds both
input tables cached.  Cached inputs make every other step publish its old output
again.  The tables that a marker selector keeps by file come out cached as well,
and in the old order where the trees stand in the old order.
-/

namespace Regen

open List (Forall₂)
open Syntax

def SameTexts : List TextFile → List TextFile → Prop :=
  Forall₂ fun a b => a.path = b.path ∧ a.digest = b.digest

private theorem SameTexts.map_path {ts us : List TextFile} (h : SameTexts ts us) :
    ts.map (·.path) = us.map (·.path) := by
  rw [← List.forall₂_eq_eq_eq, List.forall₂_map_left_iff,
    List.forall₂_map_right_iff]
  exact List.Forall₂.imp (fun _ _ hab => hab.1) h

theorem sameList_texts {ts us : List TextFile} :
    sameList TextFile.same ts us = true ↔ SameTexts ts us := by
  induction ts generalizing us with
  | nil => cases us <;> simp [sameList, SameTexts]
  | cons t ts ih =>
      cases us with
      | nil => simp [sameList, SameTexts]
      | cons u us =>
          rw [sameList, Bool.and_eq_true, TextFile.same_iff, ih]
          simp only [SameTexts, List.forall₂_cons]

theorem SameOrder.refl {κ : Type} [DecidableEq κ] (xs : List κ) :
    SameOrder xs xs :=
  Eq.refl _

namespace Table

variable {α κ : Type} [DecidableEq κ] {key : α → κ} {eq : α → α → Bool}
  {previous : Table α} {candidates : List α}

omit [DecidableEq κ] in
theorem isCached_of_mem_live {t : Table α} (h : t.isCached = true) :
    ∀ e ∈ t.live, e.isCached = true := by
  rw [live_of_isCached h]
  simpa [isCached] using h

private theorem diffOn_eq_settled_of_keys (hnodup : (previous.values.map key).Nodup)
    (hkeys : (diffOn key eq previous candidates).values.map key =
      previous.values.map key)
    (hcached : (diffOn key eq previous candidates).isCached = true) :
    diffOn key eq previous candidates = previous.settled := by
  refine eq_settled_of_isCached hcached
    (values_diffOn_of_isCached hnodup ?_ hcached)
  rw [← hkeys, map_key_values_diffOn]
  exact .refl _

private theorem diffOn_eq_settled (hnodup : (previous.values.map key).Nodup)
    (hrefl : ∀ v ∈ previous.values, eq v v = true) :
    diffOn key eq previous previous.values = previous.settled := by
  have hcached : (diffOn key eq previous previous.values).isCached = true :=
    isCached_diffOn hnodup hnodup (List.Subset.refl _)
      fun v hv => ⟨v, hv, rfl, hrefl v hv⟩
  exact diffOn_eq_settled_of_keys hnodup map_key_values_diffOn hcached

end Table

namespace Plan

variable {α β : Type} {treeOf : α → TreeId} {usable : β → Bool} {f : α → β}
  {old : List (PerTree β)} {inputs : List (Entry α)}

theorem map_tree_items_byTree :
    ((byTree treeOf usable old inputs).items treeOf f).map (·.tree) =
      inputs.map fun e => treeOf e.value := by
  simp [items, byTree, Function.comp_def]

theorem itemOf?_of_mem {tree : TreeId} (h : tree ∈ old.map (·.tree)) :
    ∃ b, itemOf? old tree = some b ∧ ⟨tree, b⟩ ∈ old := by
  cases hfind : old.reverse.find? (·.tree == tree) with
  | none =>
      obtain ⟨item, hitem, rfl⟩ := List.mem_map.1 h
      have hne := List.find?_eq_none.1 hfind item (List.mem_reverse.2 hitem)
      simp at hne
  | some item =>
      have htree : item.tree = tree := by simpa using List.find?_some hfind
      have hmem := List.mem_reverse.1 (List.mem_of_find?_eq_some hfind)
      refine ⟨item.item, by rw [itemOf?, hfind]; rfl, ?_⟩
      rwa [← htree]

private theorem all_kept_byTree (hcached : ∀ e ∈ inputs, e.isCached = true)
    (husable : ∀ x ∈ old, usable x.item = true)
    (hold : ∀ e ∈ inputs, treeOf e.value ∈ old.map (·.tree)) :
    ∀ x ∈ byTree treeOf usable old inputs,
      ∃ b, x.2 = some b ∧ ⟨treeOf x.1, b⟩ ∈ old := by
  intro x hx
  obtain ⟨e, he, rfl⟩ := List.mem_map.1 hx
  obtain ⟨b, hitem, hb⟩ := itemOf?_of_mem (hold e he)
  refine ⟨b, ?_, hb⟩
  rw [if_pos (hcached e he), hitem, Option.filter_some, if_pos (husable _ hb)]

section

variable {p : Plan α β}
  (h : ∀ x ∈ p, ∃ b, x.2 = some b ∧ ⟨treeOf x.1, b⟩ ∈ old)

include h

private theorem mem_of_mem_items : ∀ x ∈ p.items treeOf f, x ∈ old := by
  intro x hx
  obtain ⟨y, hy, rfl⟩ := List.mem_map.1 hx
  obtain ⟨b, hb, hmem⟩ := h y hy
  obtain ⟨a, kept⟩ := y
  obtain rfl : kept = some b := hb
  exact hmem

theorem computed_of_kept : p.computed = 0 := by
  refine List.countP_eq_zero.2 fun x hx => ?_
  obtain ⟨b, hb, -⟩ := h x hx
  simp [hb]

theorem journal_of_kept (visit : α → Journal) :
    ∀ a ∈ p.journal visit, a = .poll := by
  intro a ha
  obtain ⟨⟨input, kept⟩, hx, ha⟩ := List.mem_flatMap.1 ha
  obtain ⟨b, hb, -⟩ := h _ hx
  obtain rfl : kept = some b := hb
  simpa using ha

end

end Plan

namespace Work

/-! ## Idle steps -/

variable {β γ : Type}

@[simp] theorem unlessIdle_true (t : Table β) (work : Table β → Work (Table β)) :
    unlessIdle true (some t) work = { tables := t.settled } := rfl

theorem values_unlessIdle {P : List β → Prop} {idle : Bool}
    {old : Option (Table β)} {work : Table β → Work (Table β)}
    (hidle : ∀ t, old = some t → idle = true → P t.values)
    (hwork : P (work (old.getD .empty)).tables.values) :
    P (unlessIdle idle old work).tables.values := by
  cases old with
  | none => exact hwork
  | some t =>
      cases idle with
      | false => exact hwork
      | true => simpa [unlessIdle] using hidle t rfl rfl

theorem values_unlessIdle₂ {P : List β → List γ → Prop} {idle : Bool}
    {old₁ : Option (Table β)} {old₂ : Option (Table γ)}
    {work : Table β → Table γ → Work (Table β × Table γ)}
    (hidle : ∀ t₁ t₂, old₁ = some t₁ → old₂ = some t₂ → idle = true →
      P t₁.values t₂.values)
    (hwork : P (work (old₁.getD .empty) (old₂.getD .empty)).tables.1.values
      (work (old₁.getD .empty) (old₂.getD .empty)).tables.2.values) :
    P (unlessIdle₂ idle old₁ old₂ work).tables.1.values
      (unlessIdle₂ idle old₁ old₂ work).tables.2.values := by
  cases old₁ with
  | none => exact hwork
  | some t₁ =>
      cases old₂ with
      | none => exact hwork
      | some t₂ =>
          cases idle with
          | false => exact hwork
          | true => simpa [unlessIdle₂] using hidle t₁ t₂ rfl rfl rfl

theorem kept_unlessIdle {idle : Bool} {old : Option (Table β)}
    {work : Table β → Work (Table β)}
    (hwork : ∀ t, (work t).tables.isCached = true →
      (work t).tables.values = t.values)
    (h : (unlessIdle idle old work).tables.isCached = true) :
    (unlessIdle idle old work).tables.values = (old.getD .empty).values := by
  cases old with
  | none => exact hwork _ h
  | some t =>
      cases idle with
      | false => exact hwork _ h
      | true => simp [unlessIdle]

theorem kept_unlessIdle₂ {idle : Bool} {old₁ : Option (Table β)}
    {old₂ : Option (Table γ)}
    {work : Table β → Table γ → Work (Table β × Table γ)}
    (hwork : ∀ t u, (work t u).tables.2.isCached = true →
      (work t u).tables.2.values = u.values)
    (h : (unlessIdle₂ idle old₁ old₂ work).tables.2.isCached = true) :
    (unlessIdle₂ idle old₁ old₂ work).tables.2.values =
      (old₂.getD .empty).values := by
  cases old₁ with
  | none => exact hwork _ _ h
  | some t₁ =>
      cases old₂ with
      | none => exact hwork _ _ h
      | some t₂ =>
          cases idle with
          | false => exact hwork _ _ h
          | true => simp [unlessIdle₂]

/-! ## Inputs -/

theorem values_trees (input : List Tree) (old : Option (Table Tree)) :
    (trees input old).tables.values = input := by
  refine Table.values_diffOn fun t _ u _ hid hsame => ?_
  obtain ⟨id, path, root⟩ := t
  obtain ⟨id', path', root'⟩ := u
  simp only [sameFile, Tree.sameRoot, Bool.and_eq_true, beq_iff_eq] at hid hsame
  rw [hid, hsame.1, hsame.2]

theorem values_texts (input : List TextFile) (old : Option (Table TextFile)) :
    SameTexts (texts input old).tables.values input := by
  refine Table.forall₂_values_diffOn
    (List.forall₂_same.2 fun _ _ => ⟨rfl, rfl⟩) fun old _ t u htu _ hot => ?_
  rw [TextFile.same_iff] at hot
  exact ⟨hot.1.trans htu.1, hot.2.trans htu.2⟩

theorem sameFile_refl (t : Tree) : sameFile t t = true := by
  simp [sameFile, Tree.sameRoot]

theorem isCached_trees {input : List Tree} {old : Table Tree}
    (hperm : input.Perm old.values) (hnodup : (input.map (·.id)).Nodup) :
    (trees input (some old)).tables.isCached = true := by
  refine Table.isCached_diffOn ((hperm.map _).nodup_iff.1 hnodup) hnodup
    (hperm.map (·.id)).symm.subset fun t ht => ?_
  exact ⟨t, hperm.subset ht, rfl, sameFile_refl t⟩

theorem trees_eq_settled {old : Table Tree}
    (hnodup : (old.values.map (·.id)).Nodup) :
    (trees old.values (some old)).tables = old.settled :=
  Table.diffOn_eq_settled hnodup fun t _ => sameFile_refl t

theorem isCached_texts {input last : List TextFile} {old : Table TextFile}
    (hold : SameTexts old.values last)
    (hperm : input.Perm last) (hnodup : (input.map (·.path)).Nodup) :
    (texts input (some old)).tables.isCached = true := by
  have hpaths := hold.map_path
  refine Table.isCached_diffOn ?_ hnodup ?_ fun t ht => ?_
  · rw [Option.getD_some, hpaths]
    exact (hperm.map _).nodup_iff.1 hnodup
  · rw [Option.getD_some, hpaths]
    exact (hperm.map (·.path)).symm.subset
  · obtain ⟨i, hi, rfl⟩ := List.mem_iff_getElem.1 (hperm.subset ht)
    have hi' : i < old.values.length := by rwa [List.Forall₂.length_eq hold]
    have hsame := List.Forall₂.get hold hi' hi
    exact ⟨_, List.getElem_mem hi', hsame.1, (TextFile.same_iff _ _).2 hsame⟩

theorem texts_eq_settled {input : List TextFile} {old : Table TextFile}
    (hold : SameTexts old.values input)
    (hnodup : (input.map (·.path)).Nodup) :
    (texts input (some old)).tables = old.settled :=
  Table.diffOn_eq_settled_of_keys (hold.map_path ▸ hnodup)
    (Table.map_key_values_diffOn.trans hold.map_path.symm)
    (isCached_texts hold (.refl _) hnodup)

end Work

/-! ## Marker selectors -/

structure MarkerTables.Aligned (t : MarkerTables) (trees : List Tree) :
    Prop where
  aliases : t.aliases.values.map (·.tree) = trees.map (·.id)
  units : t.units.values = trees.map fun tree => ⟨tree.id, tree.root⟩
  globals : t.globals.values.length = 1
  found : t.found.values.map (·.tree) = trees.map (·.id)

def MarkerTables.toOld (t : MarkerTables) : OldMarkerTables where
  aliases := some t.aliases
  units := some t.units
  globals := some t.globals
  found := some t.found
  output := some t.output

def MarkerTables.settled (t : MarkerTables) : MarkerTables where
  aliases := t.aliases.settled
  units := t.units.settled
  globals := t.globals.settled
  found := t.found.settled
  output := t.output.settled

namespace Work

variable {site : Site} {marker : Marker} {shape : Shape} {input : Table Tree}

private theorem map_tree_scans (site : Site) {scan : Node → Scan}
    {changed : List String} {units : Table (PerTree Node)}
    {old : Option (Table (PerTree Scan))} :
    (scans site scan changed units old).tables.values.map (·.tree) =
      units.values.map (·.tree) := by
  rw [scans, Table.map_key_values_diffOn, Plan.map_tree_items_byTree,
    Table.values, List.map_map]
  rfl

theorem values_fileRoots (old : Option (Table (PerTree Node))) :
    (fileRoots input old).tables.values =
      input.values.map fun tree => ⟨tree.id, tree.root⟩ :=
  Table.values_diffOn_of_lawful

theorem map_tree_fileRoots (old : Option (Table (PerTree Node))) :
    ((fileRoots input old).tables.live.map fun e => e.value.tree) =
      input.values.map (·.id) := by
  have hroots := congrArg (List.map (·.tree)) (@values_fileRoots input old)
  rw [Table.values, List.map_map, List.map_map] at hroots
  exact hroots

theorem marked_aligned {old : OldMarkerTables}
    (hglobals : ∀ t, old.globals = some t → t.values.length = 1) :
    (marked site marker shape input old).tables.1.Aligned input.values where
  aliases := by
    change ((fileAliases input old.aliases).tables.values.map (·.tree)) = _
    rw [fileAliases, Table.map_key_values_diffOn, Plan.map_tree_items_byTree,
      Table.values, List.map_map]
    rfl
  units := values_fileRoots _
  globals := by
    refine values_unlessIdle (P := (·.length = 1))
      (fun t ht _ => hglobals t ht) ?_
    rw [Table.values_diff_of_lawful]
    rfl
  found := by
    refine (map_tree_scans site).trans ?_
    rw [values_fileRoots, List.map_map]
    rfl

private theorem isCached_diffOn_tree {α : Type} [BEq α] [LawfulBEq α]
    {old : Table (PerTree α)} {candidates : List (PerTree α)}
    {trees : List Tree} {eq : PerTree α → PerTree α → Bool}
    (hrefl : ∀ x, eq x x = true)
    (hold : old.values.map (·.tree) = trees.map (·.id))
    (hcandidates : candidates.map (·.tree) = input.values.map (·.id))
    (hsubset : ∀ x ∈ candidates, x ∈ old.values)
    (hnodup : (trees.map (·.id)).Nodup) (hperm : input.values.Perm trees) :
    (Table.diffOn (·.tree) eq old candidates).isCached = true := by
  refine Table.isCached_diffOn ?_ ?_ ?_ fun x hx =>
    ⟨x, hsubset x hx, rfl, hrefl x⟩
  · rw [hold]
    exact hnodup
  · rw [hcandidates]
    exact (hperm.map _).nodup_iff.2 hnodup
  · rw [hold, hcandidates]
    exact (hperm.map (·.id)).symm.subset

section

variable {t : MarkerTables} {trees : List Tree} (h : t.Aligned trees)
  (hnodup : (trees.map (·.id)).Nodup) (hperm : input.values.Perm trees)
  (hcached : input.isCached = true)

include h hnodup hperm hcached

omit hnodup in
theorem all_kept_fileAliases :
    ∀ x ∈ Plan.byTree (·.id) (fun _ => true) t.aliases.values input.live,
      ∃ b, x.2 = some b ∧ ⟨x.1.id, b⟩ ∈ t.aliases.values := by
  refine Plan.all_kept_byTree (Table.isCached_of_mem_live hcached)
    (fun _ _ => rfl) fun e he => ?_
  rw [h.aliases]
  exact List.mem_map_of_mem (hperm.subset (List.mem_map_of_mem he))

private theorem isCached_fileAliases :
    (fileAliases input (some t.aliases)).tables.isCached = true := by
  refine isCached_diffOn_tree (by simp) h.aliases ?_ ?_ hnodup hperm
  · rw [Plan.map_tree_items_byTree, Table.values, List.map_map]
    rfl
  · exact Plan.mem_of_mem_items (all_kept_fileAliases h hperm hcached)

omit hcached in
private theorem isCached_fileRoots :
    (fileRoots input (some t.units)).tables.isCached = true := by
  refine isCached_diffOn_tree (by simp) ?_ ?_ ?_ hnodup hperm
  · rw [Option.getD_some, h.units, List.map_map]
    rfl
  · rw [List.map_map]
    rfl
  · intro x hx
    obtain ⟨tree, htree, rfl⟩ := List.mem_map.1 hx
    rw [Option.getD_some, h.units]
    exact List.mem_map_of_mem (hperm.subset htree)

theorem globalAliases_eq :
    globalAliases (fileAliases input (some t.aliases)).tables
      (some t.globals) = { tables := t.globals.settled } := by
  have hentries : t.globals.entries.isEmpty = false := by
    have hone := h.globals
    cases hempty : t.globals.entries with
    | nil => simp [Table.values, Table.live, hempty] at hone
    | cons e es => rfl
  rw [globalAliases, isCached_fileAliases h hnodup hperm hcached]
  simp [hentries]

theorem changedNames_eq_nil :
    changedNames (some t.globals) (globalAliases
      (fileAliases input (some t.aliases)).tables (some t.globals)).tables =
        [] := by
  rw [globalAliases_eq h hnodup hperm hcached, changedNames,
    if_pos (Table.isCached_settled _)]

omit hcached in
theorem all_kept_scans :
    ∀ x ∈ Plan.byTree (·.tree) (untouched []) t.found.values
        (fileRoots input (some t.units)).tables.live,
      ∃ b, x.2 = some b ∧ ⟨x.1.tree, b⟩ ∈ t.found.values := by
  have hunits := isCached_fileRoots h hnodup hperm
  refine Plan.all_kept_byTree (Table.isCached_of_mem_live hunits)
    (fun _ _ => by simp [untouched]) fun e he => ?_
  have hvalue : e.value ∈ (fileRoots input (some t.units)).tables.values :=
    List.mem_map_of_mem he
  rw [values_fileRoots] at hvalue
  obtain ⟨tree, htree, heq⟩ := List.mem_map.1 hvalue
  rw [h.found, ← heq]
  exact List.mem_map_of_mem (hperm.subset htree)

omit hcached in
private theorem isCached_scans {scan : Node → Scan} :
    (scans site scan [] (fileRoots input (some t.units)).tables
      (some t.found)).tables.isCached = true := by
  refine isCached_diffOn_tree (by simp) h.found ?_ ?_ hnodup hperm
  · rw [Plan.map_tree_items_byTree]
    exact map_tree_fileRoots _
  · exact Plan.mem_of_mem_items (all_kept_scans h hnodup hperm)

/-- Cached trees, in any order, leave a marker selector nothing to do. -/
theorem marked_of_isCached :
    let new := (marked site marker shape input t.toOld).tables.1
    new.aliases.isCached = true ∧ new.units.isCached = true ∧
      new.globals = t.globals.settled ∧ new.found.isCached = true ∧
      new.output = t.output.settled := by
  have hglobals := congrArg Work.tables
    (globalAliases_eq h hnodup hperm hcached)
  have hchanged := changedNames_eq_nil h hnodup hperm hcached
  have hfound : (marked site marker shape input
      t.toOld).tables.1.found.isCached = true := by
    simp only [marked, MarkerTables.toOld]
    rw [hchanged]
    exact isCached_scans h hnodup hperm
  refine ⟨isCached_fileAliases h hnodup hperm hcached,
    isCached_fileRoots h hnodup hperm, hglobals, hfound, ?_⟩
  change (unlessIdle (marked site marker shape input
    t.toOld).tables.1.found.isCached _ _).tables = _
  rw [hfound]
  rfl

end

theorem marked_eq_settled {t : MarkerTables} (h : t.Aligned input.values)
    (hnodup : (input.values.map (·.id)).Nodup)
    (hcached : input.isCached = true) :
    (marked site marker shape input t.toOld).tables.1 = t.settled := by
  obtain ⟨haliases, hunits, hglobals, hfound, houtput⟩ :=
    @marked_of_isCached site marker shape input _ _ h hnodup (.refl _) hcached
  have new : MarkerTables.Aligned (marked site marker shape input
      t.toOld).tables.1 input.values := by
    refine marked_aligned fun globals hglobals => ?_
    rw [← Option.some.inj hglobals]
    exact h.globals
  have hroots : t.units.values.map (·.tree) = input.values.map (·.id) := by
    rw [h.units, List.map_map]
    rfl
  have haliases' := Table.diffOn_eq_settled_of_keys (h.aliases ▸ hnodup)
    (new.aliases.trans h.aliases.symm) haliases
  have hkeys : (marked site marker shape input t.toOld).tables.1.units.values.map
      (·.tree) = t.units.values.map (·.tree) := by
    rw [new.units, h.units]
  have hunits' := Table.diffOn_eq_settled_of_keys (hroots ▸ hnodup) hkeys hunits
  have hfound' := Table.diffOn_eq_settled_of_keys (h.found ▸ hnodup)
    (new.found.trans h.found.symm) hfound
  exact MarkerTables.mk.injEq .. ▸
    ⟨haliases', hunits', hglobals, hfound', houtput⟩

end Work

end Regen
