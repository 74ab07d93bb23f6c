import Regen.Options.Basic
import Regen.Run.Result
import Regen.Run.Step

/-!
Running a generator.  The steps are taken in order.  Outputs of a disabled kind
are passed over.  A run that absorbs edits keeps the tables of every step that
does not read texts, provided that the step published an output before; all
other steps are run.  The sources are those of the enabled outputs, in order,
and no hint may come twice.
-/

namespace Regen

open Syntax

structure RunContext (U : Type) where
  options : Options
  mode : Mode
  previous : Store (Carrier U)
  trees : List Tree
  texts : List TextFile

structure Progress (U : Type) where
  tables : Store (Carrier U) := {}
  steps : List StepRun := []

/-- The first element that stands already in front of itself. -/
def firstRepeat? (seen : List String) : List String → Option String
  | [] => none
  | s :: ss => if s ∈ seen then some s else firstRepeat? (s :: seen) ss

theorem firstRepeat?_eq_none_iff {seen ss : List String} :
    firstRepeat? seen ss = none ↔ ss.Nodup ∧ ∀ s ∈ ss, s ∉ seen := by
  induction ss generalizing seen with
  | nil => simp [firstRepeat?]
  | cons s ss ih =>
      by_cases h : s ∈ seen
      · simp [firstRepeat?, h]
      · simp only [firstRepeat?, h, if_false, ih, List.mem_cons, not_or,
          List.nodup_cons, forall_eq_or_imp, not_false_eq_true, true_and]
        grind

namespace RunContext

variable {U : Type} [BEq U]

def leavesOut (r : RunContext U) (kind : StepKind) : Bool :=
  match kind.outputKind? with
  | some output => !r.options.isEnabled output
  | none => false

def kept? (r : RunContext U) (g : GraphId) (s : GraphStep U)
    (tables : Store (Carrier U)) : Option (Store (Carrier U)) :=
  if r.mode = .edits ∧ s.readsTexts = false then
    r.previous.carryOver? g s.id tables
  else none

def track (r : RunContext U) (s : GraphStep U) (subSteps : List SubStep)
    (states : List Provenance) (executions : Nat) : List StepRun :=
  match r.options.trackSteps, s.name with
  | true, some name =>
      subSteps.map (fun sub =>
        { name := name ++ "." ++ sub.suffix, step := s.id,
          states := sub.states, executions := sub.executions }) ++
        [{ name := name, step := s.id, states := states,
           executions := executions }]
  | _, _ => []

def setAll (g : GraphId) (step : StepId)
    (new : List (Part × AnyTable (Carrier U))) (tables : Store (Carrier U)) :
    Store (Carrier U) :=
  new.foldl (fun tables (part, table) => tables.set ⟨g, step, part⟩ table)
    tables

def evaluate (r : RunContext U) (g : GraphId) (generator : String)
    (s : GraphStep U) (p : Progress U) : Traced (Progress U) := do
  let result ← Traced.lift <| s.step.run
    { site := ⟨g, s.id⟩, previous := r.previous, current := p.tables,
      trees := r.trees, texts := r.texts }
  let tables := setAll g s.id result.tables p.tables
  let states := (tables.states? (.output g s.id)).getD []
  Traced.record <| result.journal ++
    [.report (.evaluatedStep generator s.id s.displayName states.length
      result.executions)]
  return {
    tables := tables
    steps := p.steps ++ r.track s result.subSteps states result.executions }

def runStep (r : RunContext U) (g : GraphId) (generator : String)
    (p : Progress U) (s : GraphStep U) : Traced (Progress U) := do
  Traced.record [.poll]
  if r.leavesOut s.kind then
    return p
  else
    match r.kept? g s p.tables with
    | some tables =>
        let states := (tables.states? (.output g s.id)).getD []
        return { tables := tables, steps := p.steps ++ r.track s [] states 0 }
    | none => r.evaluate g generator s p

def sources (r : RunContext U) (g : GraphId) (graph : Graph U)
    (tables : Store (Carrier U)) : Except RunError (List Generated) := do
  let enabled := graph.outputs.filter fun (_, kind) => r.options.isEnabled kind
  let found ← enabled.mapM fun (step, _) =>
    tables.getD .source (.output g step)
  return found.flatMap (·.values)

def distinctHints (generator : String) (sources : List Generated) :
    Except RunError (List Generated) :=
  match firstRepeat? [] (sources.map (·.hint)) with
  | some hint => .error (.duplicateHint generator hint)
  | none => .ok sources

def runGenerator (r : RunContext U) (g : GraphId) (generator : Generator U)
    (tables : Store (Carrier U)) :
    Traced (Store (Carrier U) × GeneratorRun) := do
  let p ← generator.graph.steps.foldlM (r.runStep g generator.name)
    { tables := tables }
  let sources ← Traced.lift (r.sources g generator.graph p.tables)
  let sources ← Traced.lift (distinctHints generator.name sources)
  return (p.tables,
    { generator := generator.name, sources := sources, steps := p.steps })

def runAll (r : RunContext U) : (index : Nat) → List (Generator U) →
    Store (Carrier U) → Traced (Store (Carrier U) × List GeneratorRun)
  | _, [], tables => return (tables, [])
  | index, generator :: generators, tables => do
      let (tables, run) ← r.runGenerator ⟨index⟩ generator tables
      let (tables, runs) ← r.runAll (index + 1) generators tables
      return (tables, run :: runs)

end RunContext

end Regen
