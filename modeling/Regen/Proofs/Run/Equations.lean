import Regen.Proofs.Run.Evaluate

/-!
# What a run publishes

The tables that a run of a generator publishes solve one equation per step: the
step is left out, keeps its old tables, or is evaluated on the tables of the
steps that it reads.  The equations have one solution.  What a step does while
it runs and what it reports of itself are functions of the same tables.  A run
fails only where hints repeat, so its outcome is a function of the solution.
-/

namespace Regen

open Syntax

variable {U : Type}

/-- A step of this kind is an output, and one of a kind that is disabled. -/
def Options.disables (o : Options) : StepKind → Bool
  | .output _ kind => kind ∈ o.disabledOutputs
  | _ => false

theorem Step.disables_of_promise? {s : GraphStep U} {o : Options}
    {x : Cardinality × DataType} (h : s.step.promise? = some x) :
    o.disables s.kind = false := by
  rw [GraphStep.kind]
  cases hstep : s.step <;> simp_all [promise?, kind, Options.disables]

namespace Graph

def enabledOutputs (graph : Graph U) (options : Options) :
    List (StepId × OutputKind) :=
  graph.outputs.filter fun o => !options.disabledOutputs.contains o.2

theorem filter_isEnabled (graph : Graph U) (options : Options) :
    (graph.outputs.filter fun (_, kind) => options.isEnabled kind) =
      graph.enabledOutputs options := rfl

theorem WellFormed.enabled_step {graph : Graph U} (w : graph.WellFormed)
    {options : Options} {x : StepId × OutputKind}
    (hx : x ∈ graph.enabledOutputs options) :
    ∃ s input, graph.step? x.1 = some s ∧ s.step = .output input x.2 ∧
      options.disables s.kind = false := by
  obtain ⟨hmem, henabled⟩ := List.mem_filter.1 hx
  obtain ⟨s, input, hs, hstep⟩ := w.outputs_step hmem
  refine ⟨s, input, hs, hstep, ?_⟩
  rw [GraphStep.kind, hstep]
  simpa [Step.kind, Options.disables] using henabled

end Graph

namespace RunContext

private theorem leavesOut_eq [BEq U] (r : RunContext U) (kind : StepKind) :
    r.leavesOut kind = r.options.disables kind := by
  cases kind <;>
    simp [leavesOut, StepKind.outputKind?, Options.disables, Options.isEnabled]

def stepContext (r : RunContext U) (g : GraphId) (id : StepId)
    (current : Store (Carrier U)) : StepContext U where
  site := ⟨g, id⟩
  previous := r.previous
  current := current
  trees := r.trees
  texts := r.texts

/-- The step keeps the tables of the last run. -/
def Keeps (r : RunContext U) (g : GraphId) (s : GraphStep U) : Prop :=
  (r.mode = .edits ∧ s.readsTexts = false) ∧
    r.previous.contains (.output g s.id) = true

instance (r : RunContext U) (g : GraphId) (s : GraphStep U) :
    Decidable (r.Keeps g s) := by
  unfold Keeps
  infer_instance

theorem not_keeps_of_full {r : RunContext U} (h : r.mode = .full)
    (g : GraphId) (s : GraphStep U) : ¬ r.Keeps g s := by
  rintro ⟨⟨hmode, -⟩, -⟩
  rw [h] at hmode
  contradiction

variable [BEq U]

/-- The tables of a step in a run, given the tables of the steps it reads. -/
def published (r : RunContext U) (g : GraphId) (s : GraphStep U)
    (tables : Store (Carrier U)) (part : Part) :
    Option (AnyTable (Carrier U)) :=
  if r.options.disables s.kind then none
  else if r.Keeps g s then
    (r.previous.find? ⟨g, s.id, part⟩).map (·.settled)
  else (s.step.evaluate (r.stepContext g s.id tables)).tables.lookup part

def publish (r : RunContext U) (g : GraphId) (s : GraphStep U)
    (tables : Store (Carrier U)) : Store (Carrier U) :=
  if r.options.disables s.kind then tables
  else if r.Keeps g s then r.previous.carry g s.id tables
  else setAll g s.id (s.step.evaluate (r.stepContext g s.id tables)).tables
    tables

def publishedStates (r : RunContext U) (g : GraphId) (s : GraphStep U)
    (tables : Store (Carrier U)) : List Provenance :=
  ((r.published g s tables .output).map (·.table.states)).getD []

def reported (r : RunContext U) (g : GraphId) (s : GraphStep U)
    (tables : Store (Carrier U)) : List StepRun :=
  if r.options.disables s.kind then []
  else if r.Keeps g s then r.track s [] (r.publishedStates g s tables) 0
  else
    let result := s.step.evaluate (r.stepContext g s.id tables)
    r.track s result.subSteps (r.publishedStates g s tables) result.executions

def actions (r : RunContext U) (g : GraphId) (generator : String)
    (s : GraphStep U) (tables : Store (Carrier U)) : Journal :=
  .poll ::
    if r.options.disables s.kind then []
    else if r.Keeps g s then []
    else
      let result := s.step.evaluate (r.stepContext g s.id tables)
      result.journal ++
        [.report (.evaluatedStep generator s.id s.displayName
          (r.publishedStates g s tables).length result.executions)]

/-- The tables of a graph are those that the run publishes for its steps. -/
structure Solves (r : RunContext U) (g : GraphId) (graph : Graph U)
    (tables : Store (Carrier U)) : Prop where
  step : ∀ {id s}, graph.step? id = some s → ∀ part,
    tables.find? ⟨g, id, part⟩ = r.published g s tables part
  beyond : ∀ key, key.graph = g → graph.step? key.step = none →
    tables.find? key = none

end RunContext

def Store.Typed {U : Type} (tables : Store (Carrier U)) (g : GraphId)
    (graph : Graph U) : Prop :=
  ∀ {id s}, graph.step? id = some s → ∀ part t,
    tables.find? ⟨g, id, part⟩ = some t → s.step.partType part = some t.type

theorem Graph.WellFormed.typed_input {U : Type} {graph : Graph U}
    (w : graph.WellFormed) {g : GraphId} {tables : Store (Carrier U)}
    {id : StepId} {s : GraphStep U} (hs : graph.step? id = some s)
    (typed : ∀ {id' u}, graph.step? id' = some u → id'.index < id.index →
      ∀ part t, tables.find? ⟨g, id', part⟩ = some t →
        u.step.partType part = some t.type) :
    ∀ x ∈ s.step.reads, ∀ t, tables.find? (.output g x.1) = some t →
      t.type = x.2.2 := by
  intro x hx t ht
  obtain ⟨u, hu, hpromise⟩ := w.promised hs x hx
  have hlt : x.1.index < id.index := w.earlier_of_reads hs hx
  have htype := typed hu hlt .output t ht
  rw [Step.partType_output, Step.type_of_promise? hpromise] at htype
  exact (Option.some.inj htype).symm

namespace RunContext

variable {U : Type} [BEq U] {r : RunContext U} {g : GraphId} {graph : Graph U}

theorem published_type {s : GraphStep U} {tables : Store (Carrier U)}
    {part : Part} {t : AnyTable (Carrier U)}
    (own : ∀ t, r.previous.find? ⟨g, s.id, part⟩ = some t →
      s.step.partType part = some t.type)
    (h : r.published g s tables part = some t) :
    s.step.partType part = some t.type := by
  unfold published at h
  split at h
  · contradiction
  · split at h
    · obtain ⟨old, hold, rfl⟩ := Option.map_eq_some_iff.1 h
      exact own old hold
    · rw [← Step.type_lookup_evaluate (r.stepContext g s.id tables) s.step part,
        h]
      rfl

theorem published_congr {s : GraphStep U} {tables tables' : Store (Carrier U)}
    (h : ∀ x ∈ s.step.reads,
      tables.find? (.output g x.1) = tables'.find? (.output g x.1))
    (part : Part) :
    r.published g s tables part = r.published g s tables' part := by
  have heval := Step.evaluate_congr (c := r.stepContext g s.id tables)
    tables' h
  unfold published
  rw [heval]
  rfl

private theorem publishedStates_congr {s : GraphStep U}
    {tables tables' : Store (Carrier U)}
    (h : ∀ x ∈ s.step.reads,
      tables.find? (.output g x.1) = tables'.find? (.output g x.1)) :
    r.publishedStates g s tables = r.publishedStates g s tables' := by
  rw [publishedStates, published_congr h, publishedStates]

theorem reported_congr {s : GraphStep U} {tables tables' : Store (Carrier U)}
    (h : ∀ x ∈ s.step.reads,
      tables.find? (.output g x.1) = tables'.find? (.output g x.1)) :
    r.reported g s tables = r.reported g s tables' := by
  have heval := Step.evaluate_congr (c := r.stepContext g s.id tables)
    tables' h
  unfold reported
  rw [publishedStates_congr h, heval]
  rfl

theorem actions_congr {name : String} {s : GraphStep U}
    {tables tables' : Store (Carrier U)}
    (h : ∀ x ∈ s.step.reads,
      tables.find? (.output g x.1) = tables'.find? (.output g x.1)) :
    r.actions g name s tables = r.actions g name s tables' := by
  have heval := Step.evaluate_congr (c := r.stepContext g s.id tables)
    tables' h
  unfold actions
  rw [publishedStates_congr h, heval]
  rfl

section Runs

variable {s : GraphStep U} {tables : Store (Carrier U)}
  (hout : r.options.disables s.kind = false) (hkeeps : ¬ r.Keeps g s)

include hout hkeeps

theorem reported_of_runs :
    r.reported g s tables =
      r.track s (s.step.evaluate (r.stepContext g s.id tables)).subSteps
        (r.publishedStates g s tables)
        (s.step.evaluate (r.stepContext g s.id tables)).executions := by
  rw [reported, hout, if_neg (by simp)]
  exact if_neg hkeeps

theorem actions_of_runs (name : String) :
    r.actions g name s tables =
      .poll :: ((s.step.evaluate (r.stepContext g s.id tables)).journal ++
        [.report (.evaluatedStep name s.id s.displayName
          (r.publishedStates g s tables).length
          (s.step.evaluate (r.stepContext g s.id tables)).executions)]) := by
  rw [actions, hout, if_neg (by simp)]
  exact congrArg (List.cons Action.poll) (if_neg hkeeps)

end Runs

theorem evaluatedStep_mem_actions {name : String} {s : GraphStep U}
    {tables : Store (Carrier U)} (hout : r.options.disables s.kind = false)
    (hkeeps : ¬ r.Keeps g s) :
    .report (.evaluatedStep name s.id s.displayName
      (r.publishedStates g s tables).length
      (s.step.evaluate (r.stepContext g s.id tables)).executions) ∈
        r.actions g name s tables := by
  rw [actions_of_runs hout hkeeps]
  simp

theorem Solves.unique (w : graph.WellFormed) {tables tables' : Store (Carrier U)}
    (h : r.Solves g graph tables) (h' : r.Solves g graph tables')
    (key : TableKey) (hkey : key.graph = g) :
    tables.find? key = tables'.find? key := by
  obtain ⟨g', ⟨i⟩, part⟩ := key
  obtain rfl : g' = g := hkey
  induction i using Nat.strongRecOn generalizing part with
  | _ i ih =>
      cases hs : graph.step? ⟨i⟩ with
      | none => rw [h.beyond _ rfl hs, h'.beyond _ rfl hs]
      | some s =>
          rw [h.step hs, h'.step hs]
          refine published_congr (fun x hx => ?_) part
          have hlt : x.1.index < i := w.earlier_of_reads hs hx
          exact ih x.1.index hlt .output

/-! ## One step -/

theorem find?_publish (distinct : r.previous.Distinct) {s : GraphStep U}
    {tables : Store (Carrier U)}
    (clear : ∀ part, tables.find? ⟨g, s.id, part⟩ = none) (key : TableKey) :
    (r.publish g s tables).find? key =
      if key.graph = g ∧ key.step = s.id then
        r.published g s tables key.part
      else tables.find? key := by
  have hclear : key.graph = g ∧ key.step = s.id → tables.find? key = none := by
    obtain ⟨g', step, part⟩ := key
    rintro ⟨rfl, rfl⟩
    exact clear part
  unfold publish published
  split
  · split
    · next hkey => exact hclear hkey
    · rfl
  · split
    · rw [Store.find?_carry distinct]
      split
      · next hkey =>
        obtain ⟨g', step, part⟩ := key
        obtain ⟨rfl, rfl⟩ := hkey
        rw [clear, Option.or_none]
      · rfl
    · rw [find?_setAll (Step.nodup_evaluate _ _)]
      split
      · next hkey => rw [hclear hkey, Option.or_none]
      · rfl

theorem distinct_publish {s : GraphStep U} {tables : Store (Carrier U)}
    (h : tables.Distinct) : (r.publish g s tables).Distinct := by
  unfold publish
  split
  · exact h
  · split
    · exact h.carry _ _ _
    · exact distinct_setAll h _ _ _

private theorem states?_publish (distinct : r.previous.Distinct) {s : GraphStep U}
    {tables : Store (Carrier U)}
    (clear : ∀ part, tables.find? ⟨g, s.id, part⟩ = none) :
    ((r.publish g s tables).states? (.output g s.id)).getD [] =
      r.publishedStates g s tables := by
  rw [Store.states?, find?_publish distinct clear, if_pos ⟨rfl, rfl⟩]
  rfl

/-- A step on readable tables cannot fail. -/
theorem runStep_eq (distinct : r.previous.Distinct) (name : String)
    {s : GraphStep U} {p : Progress U}
    (clear : ∀ part, p.tables.find? ⟨g, s.id, part⟩ = none)
    (readable : Step.Readable (r.stepContext g s.id p.tables) s.step) :
    r.runStep g name p s = ⟨r.actions g name s p.tables,
      .ok ⟨r.publish g s p.tables, p.steps ++ r.reported g s p.tables⟩⟩ := by
  have hstates := states?_publish distinct clear
  unfold publish at hstates ⊢
  unfold runStep actions reported
  simp only [leavesOut_eq]
  by_cases hout : r.options.disables s.kind = true
  · simp only [hout, if_true, List.append_nil]
    rfl
  · simp only [hout, Bool.false_eq_true, if_false] at hstates ⊢
    by_cases hkeeps : r.Keeps g s
    · have hkept : r.kept? g s p.tables =
          some (r.previous.carry g s.id p.tables) := by
        rw [kept?, if_pos hkeeps.1, Store.carryOver?, if_pos hkeeps.2]
      rw [if_pos hkeeps] at hstates
      simp only [hkept, if_pos hkeeps, ← hstates]
      rfl
    · have hkept : r.kept? g s p.tables = none := by
        rw [kept?, Store.carryOver?]
        split
        · next hmode => exact if_neg fun hout => hkeeps ⟨hmode, hout⟩
        · rfl
      have hrun := Step.run_eq readable
      rw [stepContext] at hrun
      rw [if_neg hkeeps] at hstates
      simp only [hkept, if_neg hkeeps, ← hstates, evaluate, hrun]
      exact congrArg (Traced.mk · _) (congrArg (_ :: ·) (List.append_nil _))

end RunContext

end Regen
