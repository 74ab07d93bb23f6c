import Regen.Graph.Basic

/-!
Putting a graph together.  Every registration appends a step and issues a handle
for it; later registrations take handles as their inputs, so the order of the
steps is an order of evaluation.  The two input steps are registered once and
shared.  A handle knows the builder that issued it: a builder that was given a
handle of another one never finishes.
-/

namespace Regen

open Syntax

/-- Whether a step puts out any number of values or a single one. -/
inductive Cardinality where
  | many
  | one
  deriving DecidableEq, Repr

structure Handle (cardinality : Cardinality) (type : DataType) where
  builder : Nat
  step : StepId
  deriving DecidableEq, Repr

structure Builder (U : Type) where
  id : Nat
  steps : List (GraphStep U) := []
  outputs : List (StepId × OutputKind) := []
  trees : Option StepId := none
  texts : Option StepId := none
  /-- The step of the first handle that another builder issued. -/
  foreign : Option StepId := none

namespace Builder

variable {U : Type} {c d : Cardinality} {α β : DataType}

def nextId (b : Builder U) : StepId :=
  ⟨b.steps.length⟩

def readsTexts (b : Builder U) (kind : StepKind) : Bool :=
  kind == .texts ||
    kind.inputs.any fun input =>
      match b.steps[input.index]? with
      | some s => s.readsTexts
      | none => false

def push (b : Builder U) (step : Step U) : Builder U :=
  { b with
    steps := b.steps ++
      [{ id := b.nextId, step := step, readsTexts := b.readsTexts step.kind }] }

def note (b : Builder U) (h : Handle c α) : Builder U :=
  if h.builder ≠ b.id ∧ b.foreign = none then { b with foreign := some h.step }
  else b

def register (b : Builder U) (step : Step U) (c : Cardinality) (α : DataType) :
    Handle c α × Builder U :=
  (⟨b.id, b.nextId⟩, b.push step)

def inputTrees (b : Builder U) : Handle .many .tree × Builder U :=
  match b.trees with
  | some step => (⟨b.id, step⟩, b)
  | none =>
      let (h, b) := b.register .trees .many .tree
      (h, { b with trees := some h.step })

def inputTexts (b : Builder U) : Handle .many .text × Builder U :=
  match b.texts with
  | some step => (⟨b.id, step⟩, b)
  | none =>
      let (h, b) := b.register .texts .many .text
      (h, { b with texts := some h.step })

def filter (b : Builder U) (accepts : Node → Bool)
    (map : Tree → Node → Carrier U β) : Handle .many β × Builder U :=
  let (trees, b) := b.inputTrees
  b.register (.filter trees.step β accepts map) .many β

/-- The marker is checked before anything is registered. -/
def markedDeclarations (b : Builder U) (marker : String) (shape : Shape) :
    Except GraphError (Handle .many .marked × Builder U) := do
  let marker ← Marker.ofName? marker
  let (trees, b) := b.inputTrees
  return b.register (.marked trees.step marker shape) .many .marked

def select (b : Builder U) (input : Handle .many α)
    (map : Carrier U α → Carrier U β) : Handle .many β × Builder U :=
  (b.note input).register (.select input.step α β map) .many β

def selectValue (b : Builder U) (input : Handle .one α)
    (map : Carrier U α → Carrier U β) : Handle .one β × Builder U :=
  (b.note input).register (.selectValue input.step α β map) .one β

def selectMany (b : Builder U) (input : Handle .many α)
    (map : Carrier U α → List (Carrier U β)) : Handle .many β × Builder U :=
  (b.note input).register (.selectMany input.step α β map) .many β

def collect (b : Builder U) (input : Handle .many α) :
    Handle .one (.list α) × Builder U :=
  (b.note input).register (.collect input.step α) .one (.list α)

def combine (b : Builder U) (left : Handle .many α) (right : Handle .one β) :
    Handle .many (.pair α β) × Builder U :=
  ((b.note left).note right).register
    (.combine left.step right.step α β) .many (.pair α β)

def output (b : Builder U) (kind : OutputKind) (sources : Handle .many .source) :
    Builder U :=
  let b := b.note sources
  { b.push (.output sources.step kind) with
    outputs := b.outputs ++ [(b.nextId, kind)] }

def nameStep (b : Builder U) (h : Handle c α) (name : String) : Builder U :=
  let b := b.note h
  { b with
    steps := b.steps.modify h.step.index fun s => { s with name := some name } }

def finish (b : Builder U) : Except GraphError (Graph U) :=
  match b.foreign with
  | some step => .error (.foreignHandle step)
  | none => .ok ⟨b.steps, b.outputs⟩

end Builder

def Builder.toGenerator {U : Type} (b : Builder U) (name : String) :
    Except GraphError (Generator U) :=
  b.finish.map fun graph => ⟨name, graph⟩

/--
Builds a generator by registering its steps.  An error of `registration` comes
before the complaint about a handle of another builder.
-/
def Generator.build {U : Type} (name : String) (builder : Nat)
    (registration : Builder U → Except GraphError (Builder U)) :
    Except GraphError (Generator U) := do
  let b ← registration { id := builder }
  b.toGenerator name

end Regen
