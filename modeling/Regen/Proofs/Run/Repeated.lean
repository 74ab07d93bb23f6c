import Regen.Proofs.Run.Meaning

/-!
# Trees that share an identifier

A comparison by key pairs the first value of a key, while the steps that walk
the trees look up the last item of an identifier.  A second run over the same
trees takes the first tree of an identifier for unchanged and gives it what was
found in the last one.  Where both give the same, the second run publishes the
values of the first run again.
-/

namespace Regen

open List (Forall₂)
open Syntax

/-- The first value of a key gives what the last value of that key gives. -/
def EndsAgree {α κ γ : Type} [DecidableEq κ] (key : α → κ) (f : α → γ)
    (as : List α) : Prop :=
  ∀ a ∈ as, (as.find? (key · = key a)).map f =
    (as.reverse.find? (key · = key a)).map f

instance {α κ γ : Type} [DecidableEq κ] [DecidableEq γ] (key : α → κ)
    (f : α → γ) (as : List α) : Decidable (EndsAgree key f as) :=
  inferInstanceAs (Decidable (∀ a ∈ as, _))

theorem EndsAgree.map {α β κ γ : Type} [DecidableEq κ] {key : β → κ}
    {f : β → γ} {h : α → β} {as : List α}
    (agree : EndsAgree (fun a => key (h a)) (fun a => f (h a)) as) :
    EndsAgree key f (as.map h) := by
  intro b hb
  obtain ⟨a, ha, rfl⟩ := List.mem_map.1 hb
  rw [← List.map_reverse, List.find?_map, List.find?_map, Option.map_map,
    Option.map_map]
  exact agree a ha

namespace Plan

variable {α β γ : Type} {treeOf : α → TreeId} {usable : β → Bool} {f : α → β}
  {g : β → γ} {as : List α} {inputs : List (Entry α)}
  {items : List (PerTree β)}

private theorem results_byPlace_self {same : α → α → Bool}
    (h : inputs.map (·.value) = as) :
    (byPlace same (as.zip (as.map f)) inputs).results f = as.map f := by
  subst h
  induction inputs with
  | nil => rfl
  | cons e es ih =>
      rw [List.map_cons, List.map_cons, List.zip_cons_cons, byPlace, results,
        List.map_cons]
      refine List.cons_eq_cons.2 ⟨?_, ih⟩
      cases e.isCached && same e.value e.value <;> rfl

private theorem map_itemOf?
    (h : Forall₂ (fun item a => item.tree = treeOf a ∧ g item.item = g (f a))
      items as) (tree : TreeId) :
    (itemOf? items tree).map g =
      (as.reverse.find? (treeOf · = tree)).map fun a => g (f a) := by
  have hsame : (items.map fun item => (item.tree, g item.item)) =
      as.map fun a => (treeOf a, g (f a)) := by
    rw [← List.forall₂_eq_eq_eq, List.forall₂_map_left_iff,
      List.forall₂_map_right_iff]
    exact h.imp fun _ _ hitem => Prod.ext hitem.1 hitem.2
  have hfind := congrArg
    (fun l => (l.reverse.find? (·.1 = tree)).map (·.2)) hsame
  simp only [← List.map_reverse, List.find?_map, Option.map_map] at hfind
  rw [itemOf?, Option.map_map]
  exact hfind

private theorem forall₂_items_again (hin : inputs.map (·.value) = as)
    (first : ∀ e ∈ inputs, e.isCached = true →
      as.find? (treeOf · = treeOf e.value) = some e.value)
    (agree : EndsAgree treeOf (fun a => g (f a)) as)
    (h : Forall₂ (fun item a => item.tree = treeOf a ∧ g item.item = g (f a))
      items as) :
    Forall₂ (fun item a => item.tree = treeOf a ∧ g item.item = g (f a))
      ((byTree treeOf usable items inputs).items treeOf f) as := by
  rw [← hin]
  refine @forall₂_items_byTree _ _ (fun a b => g b = g (f a)) _ _ _ _ _
    (fun e he hcached b hb _ => ?_) fun _ _ => rfl
  have hmem : e.value ∈ as := hin ▸ List.mem_map_of_mem he
  have hends := agree e.value hmem
  rw [first e he hcached, ← map_itemOf? h, hb] at hends
  exact (Option.some.inj hends).symm

private theorem items_again (hin : inputs.map (·.value) = as)
    (first : ∀ e ∈ inputs, e.isCached = true →
      as.find? (treeOf · = treeOf e.value) = some e.value)
    (agree : EndsAgree treeOf f as) :
    (byTree treeOf usable (as.map fun a => ⟨treeOf a, f a⟩) inputs).items
      treeOf f = as.map fun a => ⟨treeOf a, f a⟩ := by
  have hself : Forall₂ (fun (item : PerTree β) a =>
      item.tree = treeOf a ∧ id item.item = id (f a))
        (as.map fun a => ⟨treeOf a, f a⟩) as :=
    List.forall₂_map_left_iff.2 (List.forall₂_same.2 fun _ _ => ⟨rfl, rfl⟩)
  rw [← List.forall₂_eq_eq_eq, List.forall₂_map_right_iff]
  refine (forall₂_items_again (f := f) (g := id) hin first agree hself).imp
    fun item a ⟨htree, hitem⟩ => ?_
  rw [← htree, ← show item.item = f a from hitem]

end Plan

/-- The trees once more: what is cached is the first tree of its identifier. -/
structure Revisits (trees : List Tree) (input : Table Tree) : Prop where
  values : input.values = trees
  first : ∀ e ∈ input.live, e.isCached = true →
    trees.find? (·.id = e.value.id) = some e.value

structure MarksAgree (marker : Marker) (shape : Shape) (trees : List Tree) :
    Prop where
  aliases : EndsAgree (·.id) (fun t => AliasSet.ofRoot t.root) trees
  nodes : EndsAgree (·.id) (fun t =>
    (marker.scanFile shape (globalsOf trees) t.root).nodes) trees

namespace Work

/-! ## Work on the values of the last run -/

private theorem trees_revisits {trees : List Tree} {old : Option (Table Tree)}
    (h : (old.getD .empty).values = trees) :
    Revisits trees (Work.trees trees old).tables where
  values := values_trees _ _
  first e he hcached := by
    rw [← h]
    exact Table.find?_of_isCached_diffOn he hcached

private theorem values_texts_again {texts : List TextFile}
    {old : Option (Table TextFile)} (h : (old.getD .empty).values = texts) :
    (Work.texts texts old).tables.values = texts :=
  Table.values_diffOn_again h

section Maps

variable {α β : Type} {site : Site} {sameIn : α → α → Bool}
  {sameOut : β → β → Bool} {oldInput input : Table α}
  (hin : input.values = oldInput.values)

include hin

private theorem values_select_again {map : α → β} {old : Option (Table β)}
    (hold : (old.getD .empty).values = oldInput.values.map map) :
    (select site sameIn sameOut map oldInput input old).tables.values =
      oldInput.values.map map := by
  refine values_unlessIdle (P := (· = oldInput.values.map map))
    (fun t ht _ => ?_) ?_
  · rwa [ht] at hold
  · dsimp only
    rw [hold, Plan.results_byPlace_self hin]
    exact Table.values_diff_again hold

private theorem values_selectValue_again {map : α → β} {old : Option (Table β)}
    (hold : (old.getD .empty).values = oldInput.values.map map) :
    (selectValue site sameOut map input old).tables.values =
      oldInput.values.map map := by
  refine values_unlessIdle (P := (· = oldInput.values.map map))
    (fun t ht _ => ?_) ?_
  · rwa [ht] at hold
  · rw [hin]
    exact Table.values_diff_again hold

private theorem values_selectMany_again {map : α → List β}
    {oldGroups : Option (Table (List β))} {old : Option (Table β)}
    (hgroups : (oldGroups.getD .empty).values = oldInput.values.map map)
    (hold : (old.getD .empty).values = oldInput.values.flatMap map) :
    (selectMany site sameIn sameOut map oldInput input oldGroups
      old).tables.2.values = oldInput.values.flatMap map := by
  refine values_unlessIdle₂
    (P := fun _ values => values = oldInput.values.flatMap map)
    (fun t u _ hu _ => ?_) ?_
  · rwa [hu] at hold
  · dsimp only
    rw [hgroups, Plan.results_byPlace_self hin,
      Table.values_diff_again hgroups, ← List.flatMap_def]
    exact Table.values_diff_again hold

private theorem values_collect_again {old : Option (Table (List α))}
    (hold : (old.getD .empty).values = [oldInput.values]) :
    (collect sameIn input old).tables.values = [oldInput.values] := by
  refine values_unlessIdle (P := (· = [oldInput.values]))
    (fun t ht _ => ?_) ?_
  · rwa [ht] at hold
  · rw [hin]
    exact Table.values_diff_again hold

private theorem values_combine_again {oldRight right : Table β}
    (hright : right.values = oldRight.values) {old : Option (Table (α × β))}
    (hold : (old.getD .empty).values =
      pairs oldInput.values oldRight.values) :
    (combine sameIn sameOut oldInput input right old).tables.values =
      pairs oldInput.values oldRight.values := by
  refine values_unlessIdle
    (P := (· = pairs oldInput.values oldRight.values))
    (fun t ht _ => ?_) ?_
  · rwa [ht] at hold
  · unfold pairs at hold ⊢
    rw [Table.single?, hright]
    cases hhead : oldRight.values.head? with
    | none =>
        rw [hhead] at hold
        exact Table.values_diff_again hold
    | some b =>
        rw [hhead] at hold
        dsimp only at hold ⊢
        rw [hold]
        split
        · rw [Plan.results_byPlace_self hin]
          exact Table.values_diff_again hold
        · rw [Plan.results_byPlace_nil, hin]
          exact Table.values_diff_again hold

private theorem values_output_again {old : Option (Table α)}
    (hold : (old.getD .empty).values = oldInput.values) :
    (output sameIn input old).tables.values = oldInput.values := by
  refine values_unlessIdle (P := (· = oldInput.values)) (fun t ht _ => ?_) ?_
  · rwa [ht] at hold
  · rw [hin]
    exact Table.values_diff_again hold

end Maps

section Filter

variable {β : Type} {site : Site} {sameOut : β → β → Bool}
  {accepts : Node → Bool} {map : Tree → Node → β} {trees : List Tree}
  {input : Table Tree}

private theorem values_filter_again {oldItems : Option (Table (PerTree (List β)))}
    {old : Option (Table β)} (hin : Revisits trees input)
    (agree : EndsAgree (·.id) (mappedIn accepts map) trees)
    (hitems : (oldItems.getD .empty).values =
      trees.map fun t => ⟨t.id, mappedIn accepts map t⟩)
    (hold : (old.getD .empty).values =
      trees.flatMap (mappedIn accepts map)) :
    (filter site sameOut accepts map input oldItems old).tables.2.values =
      trees.flatMap (mappedIn accepts map) := by
  refine values_unlessIdle₂
    (P := fun _ values => values = trees.flatMap (mappedIn accepts map))
    (fun t u _ hu _ => ?_) ?_
  · rwa [hu] at hold
  · dsimp only
    rw [hitems, accepted_eq_mappedIn, Plan.items_again hin.values hin.first agree,
      Table.values_diffOn_again hitems, List.flatMap_map]
    exact Table.values_diff_again hold

end Filter

section Marker

variable {site : Site} {marker : Marker} {shape : Shape} {trees : List Tree}
  {input : Table Tree} (hin : Revisits trees input)
  (agree : MarksAgree marker shape trees)

include hin agree

private theorem itemised_fileAliases_again {old : Option (Table (PerTree AliasSet))}
    (hold : Itemised DeclaredIn (old.getD .empty).values trees) :
    Itemised DeclaredIn (fileAliases input old).tables.values trees := by
  rw [fileAliases, Table.values_diffOn_of_lawful]
  exact Plan.forall₂_items_again (g := id) hin.values hin.first
    agree.aliases hold

private theorem itemised_scans_again {changed : List String}
    {oldUnits : Option (Table (PerTree Node))}
    {old : Option (Table (PerTree Scan))}
    (hunits : (oldUnits.getD .empty).values =
      trees.map fun t => ⟨t.id, t.root⟩)
    (hold : Itemised (Finds marker shape (globalsOf trees))
      (old.getD .empty).values trees) :
    Itemised (Finds marker shape (globalsOf trees))
      (scans site (marker.scanFile shape (globalsOf trees)) changed
        (fileRoots input oldUnits).tables old).tables.values trees := by
  rw [scans, Table.values_diffOn_of_lawful]
  have hvalues : (fileRoots input oldUnits).tables.values =
      trees.map fun t => ⟨t.id, t.root⟩ := by
    rw [values_fileRoots, hin.values]
  have hagree : EndsAgree (fun unit : PerTree Node => unit.tree)
      (fun unit =>
        (marker.scanFile shape (globalsOf trees) unit.item).nodes)
      (trees.map fun t => ⟨t.id, t.root⟩) :=
    EndsAgree.map (h := fun t : Tree => PerTree.mk t.id t.root) agree.nodes
  refine List.forall₂_map_right_iff.1 (Plan.forall₂_items_again (g := Scan.nodes)
    hvalues (fun e he hcached => ?_) hagree (List.forall₂_map_right_iff.2 hold))
  rw [← hunits]
  exact Table.find?_of_isCached_diffOn he hcached

private theorem values_marked_again {old : OldMarkerTables}
    (hold : old.RightFor marker shape trees) :
    (marked site marker shape input old).tables.1.output.values =
      markedIn marker shape trees := by
  have haliases := itemised_fileAliases_again hin agree hold.aliases
  have hglobals := single_globalAliases (P := (· = globalsOf trees))
    haliases.concat fun _ => hold.globals
  refine values_unlessIdle (P := (· = markedIn marker shape trees))
    (fun t ht _ => hold.output t ht) ?_
  rw [Table.values_diff_of_lawful, hglobals]
  exact (itemised_scans_again hin agree hold.units hold.found.finds).foundIn

end Marker

/-! ## What is kept beside an output -/

section Kept

variable {α β : Type} {site : Site} {sameIn : α → α → Bool}
  {sameOut : β → β → Bool}

private theorem values_groups_none {map : α → List β} {oldInput input : Table α} :
    (selectMany site sameIn sameOut map oldInput input none
      none).tables.1.values = input.values.map map := by
  simp only [selectMany, unlessIdle₂_none, Table.values_empty,
    List.zip_nil_right, Plan.results_byPlace_nil, Table.diff_empty,
    Table.values_map_ofAdded]

private theorem values_items_none {accepts : Node → Bool} {map : Tree → Node → β}
    {input : Table Tree} :
    (filter site sameOut accepts map input none none).tables.1.values =
      input.values.map fun t => ⟨t.id, mappedIn accepts map t⟩ := by
  simp only [filter, accepted_eq_mappedIn, unlessIdle₂_none,
    Table.values_empty, Plan.items_byTree_nil, Table.diffByKey_empty,
    Table.values_map_ofAdded]

private theorem marked_none_rightFor {marker : Marker} {shape : Shape}
    {input : Table Tree} :
    (marked site marker shape input {}).tables.1.toOld.RightFor marker shape
      input.values := by
  have haliases : Itemised DeclaredIn (fileAliases input none).tables.values
      input.values := by
    rw [values_fileAliases_none]
    exact List.forall₂_map_left_iff.2
      (List.forall₂_same.2 fun _ _ => ⟨rfl, rfl⟩)
  have hglobals : (globalAliases (fileAliases input none).tables
      none).tables.single?.getD {} = globalsOf input.values := by
    rw [single_globalAliases_none, haliases.concat, Option.getD_some]
  constructor
  case aliases => exact haliases
  case units => exact values_fileRoots _
  case globals => exact hglobals
  case found =>
    change Itemised _ (scans site (marker.scanFile shape
      ((globalAliases _ _).tables.single?.getD {})) _ _ _).tables.values _
    rw [hglobals, values_scans_none, values_fileRoots, List.map_map]
    exact List.forall₂_map_left_iff.2
      (List.forall₂_same.2 fun _ _ => ⟨rfl, .refl ..⟩)
  case output =>
    intro t ht
    rw [← Option.some.inj ht]
    exact (congrArg Table.values marked_none).trans (Table.values_allAdded _)

end Kept

end Work

variable {U : Type}

namespace Step

/-- A walk makes of the first tree of an identifier what it makes of the last. -/
def EndsAgree (trees : List Tree) : Step U → Prop
  | .filter _ _ accepts map =>
      Regen.EndsAgree (·.id) (mappedIn accepts map) trees
  | .marked _ marker shape => MarksAgree marker shape trees
  | _ => True

def KeptEach (tables : Store (Carrier U)) (site : Site) : Step U → Prop
  | .filter input β accepts map =>
      (tables.read (.perTree (.list β))
          ⟨site.graph, site.step, .perTree⟩).values =
        (tables.reading site.graph .tree input).map fun t =>
          ⟨t.id, mappedIn accepts map t⟩
  | .selectMany input α β map =>
      (tables.read (.list β) ⟨site.graph, site.step, .perInput⟩).values =
        (tables.reading site.graph α input).map map
  | .marked input marker shape =>
      (tables.keptMarkers site).RightFor marker shape
        (tables.reading site.graph .tree input)
  | _ => True

structure Plain (trees : List Tree) (texts : List TextFile)
    (tables : Store (Carrier U)) (site : Site) (s : Step U) : Prop where
  output : tables.reading site.graph s.type site.step =
    s.plain trees texts (tables.reading site.graph)
  kept : s.KeptEach tables site

variable [BEq U] {c : StepContext U} {s : Step U}
  (hfind : ∀ part, c.current.find? (c.key part) =
    (s.evaluate c).tables.lookup part)

include hfind

private theorem reading_evaluate {t : Table (Carrier U s.type)}
    (h : (s.evaluate c).tables.lookup .output = some ⟨s.type, t⟩) :
    c.current.reading c.site.graph s.type c.site.step = t.values :=
  congrArg Table.values (Store.read_of_find? ((hfind .output).trans h))

private theorem plain_evaluate_afresh
    (hnone : ∀ part, c.previous.find? (c.key part) = none) :
    s.Plain c.trees c.texts c.current c.site := by
  have hold : ∀ type part, c.old? type part = none := by
    intro type part
    rw [StepContext.old?, Store.at?, hnone]
    rfl
  constructor
  case output =>
    exact (reading_evaluate hfind (output_evaluate_afresh hnone)).trans
      (Table.values_allAdded _)
  case kept =>
    cases s with
    | filter input β accepts map =>
        have hread := Store.read_of_find? (hfind .perTree)
        rw [hold, hold] at hread
        exact (congrArg Table.values hread).trans Work.values_items_none
    | selectMany input α β map =>
        have hread := Store.read_of_find? (hfind .perInput)
        rw [hold, hold] at hread
        exact (congrArg Table.values hread).trans Work.values_groups_none
    | marked input marker shape =>
        have hmarkers : c.previous.keptMarkers c.site = {} :=
          OldMarkerTables.mk.injEq .. ▸
            ⟨hold _ _, hold _ _, hold _ _, hold _ _, hold _ _⟩
        rw [KeptEach, keptMarkers_evaluate hfind, hmarkers]
        exact Work.marked_none_rightFor
    | _ => trivial

private theorem reading_evaluate_again
    (plain : s.Plain c.trees c.texts c.previous c.site)
    (agree : s.EndsAgree c.trees)
    (hin : ∀ x ∈ s.reads, c.current.reading c.site.graph x.2.2 x.1 =
      c.previous.reading c.site.graph x.2.2 x.1)
    (hwalk : ∀ input, s.walked? = some input →
      c.previous.reading c.site.graph .tree input = c.trees ∧
        Revisits c.trees (c.read .tree input)) :
    c.current.reading c.site.graph s.type c.site.step =
      c.previous.reading c.site.graph s.type c.site.step := by
  have hplain := plain.output
  rw [hplain]
  cases s with
  | trees =>
      exact (reading_evaluate hfind rfl).trans
        (Work.trees_revisits hplain).values
  | texts =>
      refine (reading_evaluate hfind rfl).trans ?_
      exact Work.values_texts_again hplain
  | filter input β accepts map =>
      obtain ⟨htrees, hrevisits⟩ := hwalk input rfl
      have hitems := plain.kept
      rw [KeptEach, htrees] at hitems
      rw [Step.plain, htrees] at hplain ⊢
      refine (reading_evaluate hfind rfl).trans ?_
      exact Work.values_filter_again hrevisits agree hitems hplain
  | marked input marker shape =>
      obtain ⟨htrees, hrevisits⟩ := hwalk input rfl
      have hright := plain.kept
      rw [KeptEach, htrees] at hright
      rw [Step.plain, htrees] at hplain ⊢
      refine (reading_evaluate hfind rfl).trans ?_
      exact Work.values_marked_again hrevisits agree hright
  | select input α β map =>
      refine (reading_evaluate hfind rfl).trans ?_
      exact Work.values_select_again (hin _ (List.mem_singleton_self _)) hplain
  | selectValue input α β map =>
      refine (reading_evaluate hfind rfl).trans ?_
      exact Work.values_selectValue_again
        (hin _ (List.mem_singleton_self _)) hplain
  | selectMany input α β map =>
      refine (reading_evaluate hfind rfl).trans ?_
      exact Work.values_selectMany_again
        (hin _ (List.mem_singleton_self _)) plain.kept hplain
  | collect input α =>
      refine (reading_evaluate hfind rfl).trans ?_
      exact Work.values_collect_again (hin _ (List.mem_singleton_self _)) hplain
  | combine left right α β =>
      refine (reading_evaluate hfind rfl).trans ?_
      exact Work.values_combine_again
        (hin (left, .many, α) (by simp [reads]))
        (hin (right, .one, β) (by simp [reads])) hplain
  | output input kind =>
      refine (reading_evaluate hfind rfl).trans ?_
      exact Work.values_output_again (hin _ (List.mem_singleton_self _)) hplain

end Step

variable {g : GraphId} {graph : Graph U}

def Store.Plain (tables : Store (Carrier U)) (options : Options)
    (trees : List Tree) (texts : List TextFile) (g : GraphId)
    (graph : Graph U) : Prop :=
  ∀ id s, graph.step? id = some s → options.disables s.kind = false →
    s.step.Plain trees texts tables ⟨g, id⟩

namespace RunContext

variable [BEq U] {r : RunContext U} {tables : Store (Carrier U)}
  (w : graph.WellFormed)

include w

theorem Solves.plain (h : r.Solves g graph tables)
    (fresh : ∀ key, key.graph = g → r.previous.find? key = none) :
    tables.Plain r.options r.trees r.texts g graph := by
  intro id s hs hout
  have hkeeps : ¬ r.Keeps g s := by
    rintro ⟨-, hthere⟩
    rw [Store.contains, fresh _ rfl] at hthere
    contradiction
  exact Step.plain_evaluate_afresh (c := r.stepContext g id tables)
    (h.find?_of_runs w hs hout hkeeps) fun _ => fresh _ rfl

/-- The trees of a first run once more bring back the values of every step. -/
theorem Solves.reading_again (h : r.full.Solves g graph tables)
    (plain : r.previous.Plain r.options r.trees r.texts g graph)
    (agree : ∀ s ∈ graph.steps, s.step.EndsAgree r.trees)
    {id : StepId} {s : GraphStep U} (hs : graph.step? id = some s)
    (hout : r.options.disables s.kind = false) :
    tables.reading g s.step.type id = r.previous.reading g s.step.type id := by
  obtain ⟨i⟩ := id
  induction i using Nat.strongRecOn generalizing s with
  | _ i ih =>
      refine Step.reading_evaluate_again (c := r.full.stepContext g ⟨i⟩ tables)
        (h.find?_of_runs w hs hout (not_keeps_full s)) (plain _ s hs hout)
        (agree s (List.mem_of_getElem? hs)) (fun x hx => ?_)
        fun input hinput => ?_
      · obtain ⟨u, hu, hpromise⟩ := w.promised hs x hx
        have hlt : x.1.index < i := w.earlier_of_reads hs hx
        have hinput := ih x.1.index hlt (Step.disables_of_promise? hpromise)
          hu
        rwa [Step.type_of_promise? hpromise] at hinput
      · obtain ⟨u, hu, hutrees⟩ := w.walked hs input hinput
        have hout := disables_of_step r.options hutrees rfl
        have hplain := (plain input u hu hout).output
        rw [hutrees] at hplain
        have hread := h.read_of_runs w hu hutrees hout (not_keeps_full u)
          .output .tree rfl
        refine ⟨hplain, ?_⟩
        exact (congrArg (Revisits r.trees) hread).mpr
          (Work.trees_revisits hplain)

theorem Solves.gather_again (h : r.full.Solves g graph tables)
    (plain : r.previous.Plain r.options r.trees r.texts g graph)
    (agree : ∀ s ∈ graph.steps, s.step.EndsAgree r.trees) :
    gather r.options g graph tables = gather r.options g graph r.previous := by
  refine gather_eq_of_reading w fun hs hstep hout => ?_
  have hreading := h.reading_again w plain agree hs hout
  rwa [hstep] at hreading

end RunContext

end Regen
