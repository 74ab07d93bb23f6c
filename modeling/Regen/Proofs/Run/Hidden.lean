import Mathlib.Data.List.Flatten
import Regen.Proofs.Run.Moved
import Regen.Proofs.Run.Sources

/-!
# Runs that leave out outputs

No step reads an output, so a run that leaves out some kinds of output does the
same at every other step as a run that leaves out none.  It takes the same looks
and makes the same calls, as outputs make none, and its sources are those of the
other outputs.
-/

namespace Regen

open Syntax

variable {U : Type}

/-- The stores differ at most in the tables of steps that are left out. -/
def Store.AlikeApartFrom (options : Options)
    (tables tables' : Store (Carrier U)) (g : GraphId) (graph : Graph U) :
    Prop :=
  ∀ {id s}, graph.step? id = some s → options.disables s.kind = false →
    ∀ part, tables.find? ⟨g, id, part⟩ = tables'.find? ⟨g, id, part⟩

private theorem Options.disables_of_none {options : Options}
    (h : options.disabledOutputs = []) (kind : StepKind) :
    options.disables kind = false := by
  cases kind <;> simp [disables, h]

theorem Graph.enabledOutputs_of_none {options : Options}
    (h : options.disabledOutputs = []) (graph : Graph U) :
    graph.enabledOutputs options = graph.outputs := by
  simp [enabledOutputs, h]

private theorem Step.output_of_disables {options : Options} {s : GraphStep U}
    (h : options.disables s.kind = true) :
    ∃ input kind, s.step = .output input kind := by
  rw [GraphStep.kind] at h
  cases hstep : s.step <;> simp_all [Step.kind, Options.disables]

theorem Store.AlikeApartFrom.find?_output {options : Options}
    {tables tables' : Store (Carrier U)} {g : GraphId} {graph : Graph U}
    (h : tables.AlikeApartFrom options tables' g graph) (w : graph.WellFormed)
    {x : StepId × OutputKind} (hx : x ∈ graph.enabledOutputs options) :
    tables.find? (.output g x.1) = tables'.find? (.output g x.1) := by
  obtain ⟨s, input, hs, -, hout⟩ := w.enabled_step hx
  exact h hs hout .output

private theorem Work.journal_output {α : Type} (same : α → α → Bool)
    (input : Table α) (old : Option (Table α)) :
    (Work.output same input old).journal = [] := by
  rw [output]
  cases old with
  | none => rfl
  | some t => cases input.isCached <;> rfl

namespace RunContext

structure Hides (r r' : RunContext U) (g : GraphId) (graph : Graph U) :
    Prop where
  all : r.options.disabledOutputs = []
  mode : r.mode = r'.mode
  trees : r.trees = r'.trees
  texts : r.texts = r'.texts
  previous :
    r.previous.AlikeApartFrom r'.options r'.previous g graph

variable [BEq U] {r r' : RunContext U} {g : GraphId} {graph : Graph U}
  {tables tables' : Store (Carrier U)}

private theorem published_withOptions {options : Options} {s : GraphStep U}
    (h : options.disables s.kind = r.options.disables s.kind)
    (part : Part) :
    published { r with options := options } g s tables part =
      r.published g s tables part := by
  rw [published, published, h]
  rfl

private theorem actions_withOptions {options : Options} {s : GraphStep U}
    (h : options.disables s.kind = r.options.disables s.kind)
    (name : String) :
    actions { r with options := options } g name s tables =
      r.actions g name s tables := by
  rw [actions, actions, publishedStates, publishedStates,
    published_withOptions h, h]
  rfl

private theorem beats_actions_output {s : GraphStep U} {input : StepId}
    {kind : OutputKind} (h : s.step = .output input kind) (name : String) :
    (r.actions g name s tables).beats = [.look] := by
  have hjournal : (s.step.evaluate (r.stepContext g s.id tables)).journal =
      [] := by
    rw [h]
    exact Work.journal_output ..
  simp only [actions, hjournal]
  split
  · rfl
  · split <;> rfl

namespace Hides

variable (hides : Hides r r' g graph) (w : graph.WellFormed)

include hides w

omit [BEq U] in
theorem agree {id : StepId} {s : GraphStep U} (hs : graph.step? id = some s)
    (hout : r'.options.disables s.kind = false)
    (inputs : ∀ x ∈ s.step.reads,
      tables.find? (.output g x.1) = tables'.find? (.output g x.1)) :
    Agree r { r' with options := r.options } g g s tables tables' := by
  have hown := hides.previous hs hout
  rw [← w.id_eq hs] at hown
  constructor
  case options => rfl
  case keeps =>
    simp only [Keeps, hides.mode, Store.contains, TableKey.output, hown]
  case view =>
    refine ⟨rfl, hown, inputs, fun x hx => ?_, fun _ => hides.trees,
      fun _ => hides.texts⟩
    obtain ⟨u, hu, hpromise⟩ := w.promised hs x hx
    exact hides.previous hu (Step.disables_of_promise? hpromise) .output

theorem alike (h : r.Solves g graph tables) (h' : r'.Solves g graph tables') :
    tables.AlikeApartFrom r'.options tables' g graph := by
  rintro ⟨i⟩ s hs hout
  induction i using Nat.strongRecOn generalizing s with
  | _ i ih =>
      intro part
      have agree : Agree r { r' with options := r.options } g g s tables
          tables' := by
        refine hides.agree w hs hout fun x hx => ?_
        obtain ⟨u, hu, hpromise⟩ := w.promised hs x hx
        exact ih x.1.index (w.earlier_of_reads hs hx) hu
          (Step.disables_of_promise? hpromise) .output
      have hboth : r.options.disables s.kind = r'.options.disables s.kind :=
        (Options.disables_of_none hides.all s.kind).trans hout.symm
      rw [h.step hs, h'.step hs, ← agree.published,
        published_withOptions hboth]

theorem beats_actions
    (alike : tables.AlikeApartFrom r'.options tables' g graph) (name : String)
    {s : GraphStep U} (hs : s ∈ graph.steps) :
    (r'.actions g name s tables').beats =
      (r.actions g name s tables).beats := by
  cases hout : r'.options.disables s.kind with
  | true =>
      obtain ⟨input, kind, hstep⟩ := Step.output_of_disables hout
      rw [beats_actions_output hstep, beats_actions_output hstep]
  | false =>
      obtain ⟨i, hi⟩ := List.mem_iff_getElem?.1 hs
      have hs' : graph.step? ⟨i⟩ = some s := hi
      have agree : Agree r { r' with options := r.options } g g s tables
          tables' := by
        refine hides.agree w hs' hout fun x hx => ?_
        obtain ⟨u, hu, hpromise⟩ := w.promised hs' x hx
        exact alike hu (Step.disables_of_promise? hpromise) .output
      have hboth : r.options.disables s.kind = r'.options.disables s.kind :=
        (Options.disables_of_none hides.all s.kind).trans hout.symm
      rw [← actions_withOptions hboth, agree.actions, Journal.beats_moved]

omit [BEq U] in
theorem gather_sublist
    (alike : tables.AlikeApartFrom r'.options tables' g graph) :
    (gather r'.options g graph tables').Sublist
      (gather r.options g graph tables) := by
  have hsame : gather r'.options g graph tables' =
      (graph.enabledOutputs r'.options).flatMap fun x =>
        (tables.read .source (.output g x.1)).values := by
    refine List.flatMap_congr fun x hx => ?_
    rw [Store.read_congr (alike.find?_output w hx)]
  have hall : gather r.options g graph tables =
      (graph.enabledOutputs r.options).flatMap fun x =>
        (tables.read .source (.output g x.1)).values := rfl
  rw [hsame, hall, Graph.enabledOutputs_of_none hides.all]
  exact List.filter_sublist.flatMap _

end Hides

/-! ## All generators -/

theorem beats_actionsAll_congr {index : Nat} {generators : List (Generator U)}
    (h : ∀ i generator, generators[i]? = some generator →
      ∀ s ∈ generator.graph.steps,
        (r'.actions ⟨index + i⟩ generator.name s tables').beats =
          (r.actions ⟨index + i⟩ generator.name s tables).beats) :
    (r'.actionsAll tables' index generators).beats =
      (r.actionsAll tables index generators).beats := by
  induction generators generalizing index with
  | nil => rfl
  | cons generator generators ih =>
      rw [actionsAll, actionsAll, Journal.beats_append, Journal.beats_append,
        Journal.beats_flatMap, Journal.beats_flatMap]
      refine congrArg₂ _ (List.flatMap_congr (h 0 generator rfl))
        (ih fun i g hi => ?_)
      rw [Nat.add_right_comm]
      exact h (i + 1) g hi

omit [BEq U] in
theorem verdict_of_sublist {options options' : Options}
    {generators : List (Generator U)} {shown : List (String × List Generated)}
    (hsub : ∀ i generator, generators[i]? = some generator →
      (gather options' ⟨i⟩ generator.graph tables').Sublist
        (gather options ⟨i⟩ generator.graph tables))
    (h : verdict (gatherAll options tables 0 generators) = .ok shown) :
    verdict (gatherAll options' tables' 0 generators) =
      .ok (gatherAll options' tables' 0 generators) := by
  rw [verdict_eq_ok_iff] at h ⊢
  refine ⟨rfl, fun x hx => ?_⟩
  obtain ⟨i, hi⟩ := List.mem_iff_getElem?.1 hx
  rw [getElem?_gatherAll, Option.map_eq_some_iff] at hi
  obtain ⟨generator, hi, rfl⟩ := hi
  rw [Nat.zero_add]
  have hmem : (generator.name, gather options ⟨i⟩ generator.graph tables) ∈
      gatherAll options tables 0 generators := by
    refine List.mem_of_getElem? (i := i) ?_
    rw [getElem?_gatherAll, hi, Nat.zero_add]
    rfl
  exact ((hsub i generator hi).map _).nodup (h.2 _ hmem)

end RunContext

end Regen
