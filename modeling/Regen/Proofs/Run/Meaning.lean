import Regen.Proofs.Run.Faithful

/-!
# What a first run computes

The meaning of a step is the plain list of values that it makes out of the
meanings of the steps it reads.  A run that finds no tables has nothing to
compare with: it gives every step the table of its meaning, with each value
tagged as added.  Trees may share an identifier.
-/

namespace Regen

open Syntax

namespace Plan

variable {α β : Type} {same : α → α → Bool} {treeOf : α → TreeId}
  {usable : β → Bool} {f : α → β} {input : Table α}

theorem results_byPlace_nil :
    (byPlace same [] input.live).results f = input.values.map f := by
  rw [Table.values]
  induction input.live with
  | nil => rfl
  | cons e es ih =>
      rw [byPlace, results, List.map_cons, List.map_cons, List.map_cons]
      exact congrArg _ ih

theorem items_byTree_nil :
    (byTree treeOf usable [] input.live).items treeOf f =
      input.values.map fun a => ⟨treeOf a, f a⟩ := by
  rw [items, byTree, Table.values, List.map_map, List.map_map]
  refine List.map_congr_left fun e _ => ?_
  simp [itemOf?, result]

end Plan

namespace Table

variable {α : Type}

def allAdded (vs : List α) : Table α :=
  ⟨vs.map (⟨·, .added⟩)⟩

@[simp] theorem values_allAdded (vs : List α) : (allAdded vs).values = vs :=
  values_map_ofAdded vs

end Table

namespace Work

open Table (allAdded)

variable {α β γ : Type} {site : Site}

/-! ## Work without old tables -/

@[simp] theorem unlessIdle_none (idle : Bool)
    (work : Table β → Work (Table β)) :
    unlessIdle idle none work = work .empty := rfl

@[simp] theorem unlessIdle₂_none (idle : Bool)
    (work : Table β → Table γ → Work (Table β × Table γ)) :
    unlessIdle₂ idle none none work = work .empty .empty := rfl

section

variable {sameIn : α → α → Bool} {sameOut : β → β → Bool}
  {oldInput input : Table α}

private theorem select_none {map : α → β} :
    (select site sameIn sameOut map oldInput input none).tables =
      allAdded (input.values.map map) := by
  simp only [select, unlessIdle_none, Table.values_empty, List.zip_nil_right,
    Plan.results_byPlace_nil, Table.diff_empty]
  rfl

private theorem selectValue_none {map : α → β} :
    (selectValue site sameOut map input none).tables =
      allAdded (input.values.map map) := by
  rw [selectValue, unlessIdle_none, Table.diff_empty]
  rfl

private theorem selectMany_none {map : α → List β} :
    (selectMany site sameIn sameOut map oldInput input none none).tables.2 =
      allAdded (input.values.flatMap map) := by
  simp only [selectMany, unlessIdle₂_none, Table.values_empty,
    List.zip_nil_right, Plan.results_byPlace_nil, Table.diff_empty,
    Table.values_map_ofAdded]
  rfl

private theorem collect_none : (collect sameIn input none).tables =
    allAdded [input.values] := by
  rw [collect, unlessIdle_none, Table.diff_empty]
  rfl

private theorem combine_none {oldLeft left : Table α} {right : Table β} :
    (combine sameIn sameOut oldLeft left right none).tables =
      allAdded (pairs left.values right.values) := by
  rw [combine, unlessIdle_none, pairs, Table.single?]
  cases right.values.head? with
  | none => rfl
  | some b =>
      simp only [Table.values_empty, List.zip_nil_right, ite_self,
        Plan.results_byPlace_nil, Table.diff_empty]
      rfl

private theorem output_none : (output sameIn input none).tables =
    allAdded input.values := by
  rw [output, unlessIdle_none, Table.diff_empty]
  rfl

end

section

variable {input : Table Tree}

private theorem filter_none {sameOut : β → β → Bool} {accepts : Node → Bool}
    {map : Tree → Node → β} :
    (filter site sameOut accepts map input none none).tables.2 =
      allAdded (input.values.flatMap (mappedIn accepts map)) := by
  simp only [filter, accepted_eq_mappedIn, unlessIdle₂_none,
    Table.values_empty, Plan.items_byTree_nil, Table.diffByKey_empty,
    Table.diff_empty, Table.values_map_ofAdded, List.flatMap_map]
  rfl

theorem values_fileAliases_none :
    (fileAliases input none).tables.values =
      input.values.map fun t => ⟨t.id, AliasSet.ofRoot t.root⟩ := by
  rw [fileAliases, Table.values_diffOn_of_lawful]
  exact Plan.items_byTree_nil

theorem values_scans_none {scan : Node → Scan} {changed : List String}
    {units : Table (PerTree Node)} :
    (scans site scan changed units none).tables.values =
      units.values.map fun unit => ⟨unit.tree, scan unit.item⟩ := by
  rw [scans, Table.values_diffOn_of_lawful]
  exact Plan.items_byTree_nil

theorem single_globalAliases_none {aliases : Table (PerTree AliasSet)} :
    (globalAliases aliases none).tables.single? =
      some (AliasSet.concat (aliases.values.map (·.item))) := by
  rw [globalAliases, unlessIdle_none, Table.single?,
    Table.values_diff_of_lawful]
  rfl

theorem marked_none {marker : Marker} {shape : Shape} :
    (marked site marker shape input {}).tables.1.output =
      allAdded (markedIn marker shape input.values) := by
  have hglobals : AliasSet.concat
      ((fileAliases input none).tables.values.map (·.item)) =
        globalsOf input.values := by
    rw [values_fileAliases_none, List.map_map]
    exact AliasSet.concat_ofRoot _
  simp only [marked, unlessIdle_none, Table.diff_empty, foundIn,
    values_scans_none, values_fileRoots, single_globalAliases_none,
    hglobals, Option.getD_some, List.flatMap_map]
  exact congrArg allAdded (flatMap_scanFile marker shape input.values)

end

end Work

variable {U : Type}

namespace Step

variable {s : Step U} {trees : List Tree} {texts : List TextFile}
  {read read' : (type : DataType) → StepId → List (Carrier U type)}

private theorem plain_congr
    (h : ∀ x ∈ s.reads, read x.2.2 x.1 = read' x.2.2 x.1) :
    s.plain trees texts read = s.plain trees texts read' := by
  cases s with
  | trees => rfl
  | texts => rfl
  | combine left right α β =>
      have hleft := h (left, .many, α) (by simp [reads])
      have hright := h (right, .one, β) (by simp [reads])
      rw [plain, plain, hleft, hright]
  | _ =>
      have hin := h _ (List.mem_singleton_self _)
      rw [plain, plain, hin]

private theorem single_plain {α : DataType} (hone : s.promise? = some (.one, α))
    (h : ∀ x ∈ s.reads, x.2.1 = .one → ∃ v, read x.2.2 x.1 = [v]) :
    ∃ v, s.plain trees texts read = [v] := by
  cases s with
  | selectValue input α β map =>
      obtain ⟨v, hv⟩ := h _ (List.mem_singleton_self _) rfl
      exact ⟨map v, congrArg (List.map map) hv⟩
  | collect input α => exact ⟨read α input, rfl⟩
  | _ => simp [promise?] at hone

variable [BEq U] {c : StepContext U}

theorem output_evaluate_afresh
    (h : ∀ part, c.previous.find? (c.key part) = none) :
    (s.evaluate c).tables.lookup .output = some ⟨s.type, .allAdded
      (s.plain c.trees c.texts (c.current.reading c.site.graph))⟩ := by
  have hold : ∀ type part, c.old? type part = none := by
    intro type part
    rw [StepContext.old?, Store.at?, h]
    rfl
  have published : ∀ (type : DataType) {t u : Table (Carrier U type)}, t = u →
      some (AnyTable.mk type t) = some ⟨type, u⟩ := by
    rintro type t u rfl
    rfl
  cases s with
  | trees =>
      rw [evaluate, hold]
      exact published .tree (Table.diffByKey_empty _ _ _)
  | texts =>
      rw [evaluate, hold]
      exact published .text (Table.diffByKey_empty _ _ _)
  | filter input β accepts map =>
      rw [evaluate, hold, hold]
      exact published β Work.filter_none
  | marked input marker shape =>
      rw [evaluate, oldMarkerTables, hold, hold, hold, hold, hold]
      exact published .marked Work.marked_none
  | select input α β map =>
      rw [evaluate, hold]
      exact published β Work.select_none
  | selectValue input α β map =>
      rw [evaluate, hold]
      exact published β Work.selectValue_none
  | selectMany input α β map =>
      rw [evaluate, hold, hold]
      exact published β Work.selectMany_none
  | collect input α =>
      rw [evaluate, hold]
      exact published (.list α) Work.collect_none
  | combine left right α β =>
      rw [evaluate, hold]
      exact published (.pair α β) Work.combine_none
  | output input kind =>
      rw [evaluate, hold]
      exact published .source Work.output_none

end Step

namespace Graph

variable {graph : Graph U} {trees : List Tree} {texts : List TextFile}

/--
The values that a step stands for over the given files: its plain values, made
from what the steps that it reads stand for.
-/
inductive Denotes (graph : Graph U) (trees : List Tree)
    (texts : List TextFile) :
    StepId → (type : DataType) → List (Carrier U type) → Prop
  | step {id : StepId} {s : GraphStep U}
      (read : (type : DataType) → StepId → List (Carrier U type))
      (hs : graph.step? id = some s)
      (hread : ∀ x ∈ s.step.reads,
        Denotes graph trees texts x.1 x.2.2 (read x.2.2 x.1)) :
      Denotes graph trees texts id s.step.type (s.step.plain trees texts read)

theorem Denotes.unique {id : StepId} {type type' : DataType}
    {vs : List (Carrier U type)} {ws : List (Carrier U type')}
    (h : graph.Denotes trees texts id type vs)
    (h' : graph.Denotes trees texts id type' ws) :
    (⟨type, vs⟩ : (type : DataType) × List (Carrier U type)) =
      ⟨type', ws⟩ := by
  induction h generalizing type' with
  | @step id s read hs hread ih =>
      cases h' with
      | @step _ s' read' hs' hread' =>
          obtain rfl : s = s' := Option.some.inj (hs.symm.trans hs')
          have hsame : ∀ x ∈ s.step.reads, read x.2.2 x.1 = read' x.2.2 x.1 :=
            fun x hx => eq_of_heq (Sigma.mk.inj (ih x hx (hread' x hx))).2
          rw [Step.plain_congr hsame]

theorem Denotes.iff_eq {id : StepId} {type : DataType}
    {vs ws : List (Carrier U type)} (h : graph.Denotes trees texts id type vs) :
    graph.Denotes trees texts id type ws ↔ ws = vs := by
  constructor
  · intro h'
    exact (eq_of_heq (Sigma.mk.inj (h.unique h')).2).symm
  · rintro rfl
    exact h

theorem Denotes.single (w : graph.WellFormed) {id : StepId} {type : DataType}
    {vs : List (Carrier U type)} (h : graph.Denotes trees texts id type vs)
    {s : GraphStep U} (hs : graph.step? id = some s) {α : DataType}
    (hone : s.step.promise? = some (.one, α)) : ∃ v, vs = [v] := by
  induction h generalizing s α with
  | @step id s' read hs' hread ih =>
      obtain rfl : s = s' := Option.some.inj (hs.symm.trans hs')
      refine Step.single_plain hone fun x hx hx' => ?_
      obtain ⟨u, hu, hpromise⟩ := w.promised hs x hx
      refine ih x hx hu (α := x.2.2) ?_
      rw [hpromise, ← hx']

end Graph

namespace RunContext

variable [BEq U] {r : RunContext U} {g : GraphId} {graph : Graph U}
  {tables : Store (Carrier U)}

/-- Without old tables, every step gets the table of what it stands for. -/
theorem Solves.denotes (w : graph.WellFormed)
    (h : r.full.Solves g graph tables)
    (fresh : ∀ key, key.graph = g → r.previous.find? key = none)
    {id : StepId} {s : GraphStep U} (hs : graph.step? id = some s)
    (hout : r.options.disables s.kind = false) :
    graph.Denotes r.trees r.texts id s.step.type
        (tables.reading g s.step.type id) ∧
      tables.find? (.output g id) =
        some ⟨s.step.type, .allAdded (tables.reading g s.step.type id)⟩ := by
  obtain ⟨i⟩ := id
  induction i using Nat.strongRecOn generalizing s with
  | _ i ih =>
      have hfind : tables.find? (.output g ⟨i⟩) = some ⟨s.step.type, .allAdded
          (s.step.plain r.trees r.texts (tables.reading g))⟩ :=
        (h.find?_of_runs w hs hout (not_keeps_full s) .output).trans
          (Step.output_evaluate_afresh fun part => fresh _ rfl)
      have hreading : tables.reading g s.step.type ⟨i⟩ =
          s.step.plain r.trees r.texts (tables.reading g) := by
        rw [Store.reading, Store.read_of_find? hfind, Table.values_allAdded]
      rw [hreading]
      refine ⟨.step _ hs fun x hx => ?_, hfind⟩
      obtain ⟨u, hu, hpromise⟩ := w.promised hs x hx
      have hlt : x.1.index < i := w.earlier_of_reads hs hx
      have hinput := (ih x.1.index hlt (Step.disables_of_promise? hpromise)
        hu).1
      rwa [Step.type_of_promise? hpromise] at hinput

end RunContext

end Regen
