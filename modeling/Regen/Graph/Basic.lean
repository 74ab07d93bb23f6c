import Regen.DataType
import Regen.Graph.Kind

/-!
Step graphs.  A step names the steps it reads by their numbers and holds the
functions it applies; the type codes say at which types it reads and publishes.
The steps of a graph stand in the order of their numbers, and a step reads only
steps before it.
-/

namespace Regen

open Syntax

inductive Step (U : Type) where
  | trees
  | texts
  /-- The accepted nodes of every tree, mapped. -/
  | filter (input : StepId) (β : DataType) (accepts : Node → Bool)
      (map : Tree → Node → Carrier U β)
  /-- The declarations of a shape that carry a marker. -/
  | marked (input : StepId) (marker : Marker) (shape : Shape)
  | select (input : StepId) (α β : DataType)
      (map : Carrier U α → Carrier U β)
  | selectValue (input : StepId) (α β : DataType)
      (map : Carrier U α → Carrier U β)
  | selectMany (input : StepId) (α β : DataType)
      (map : Carrier U α → List (Carrier U β))
  | collect (input : StepId) (α : DataType)
  /-- Each value on the left with the single value on the right. -/
  | combine (left right : StepId) (α β : DataType)
  | output (input : StepId) (kind : OutputKind)

namespace Step

variable {U : Type}

def kind : Step U → StepKind
  | .trees => .trees
  | .texts => .texts
  | .filter input _ _ _ => .filter input
  | .marked input _ _ => .marked input
  | .select input _ _ _ => .select input
  | .selectValue input _ _ _ => .selectValue input
  | .selectMany input _ _ _ => .selectMany input
  | .collect input _ => .collect input
  | .combine left right _ _ => .combine left right
  | .output input kind => .output input kind

def type : Step U → DataType
  | .trees => .tree
  | .texts => .text
  | .filter _ β _ _ => β
  | .marked _ _ _ => .marked
  | .select _ _ β _ | .selectValue _ _ β _ | .selectMany _ _ β _ => β
  | .collect _ α => .list α
  | .combine _ _ α β => .pair α β
  | .output _ _ => .source

def inputTypes : Step U → List DataType
  | .trees | .texts => []
  | .filter _ _ _ _ | .marked _ _ _ => [.tree]
  | .select _ α _ _ | .selectValue _ α _ _ | .selectMany _ α _ _
  | .collect _ α => [α]
  | .combine _ _ α β => [α, β]
  | .output _ _ => [.source]

theorem length_inputTypes (s : Step U) :
    s.inputTypes.length = s.kind.inputs.length := by
  cases s <;> rfl

end Step

structure GraphStep (U : Type) where
  id : StepId
  step : Step U
  name : Option String := none
  /-- Whether the step reads the auxiliary texts, directly or through others. -/
  readsTexts : Bool

namespace GraphStep

def kind {U : Type} (s : GraphStep U) : StepKind :=
  s.step.kind

def displayName {U : Type} (s : GraphStep U) : String :=
  s.name.getD s.kind.label

end GraphStep

structure Graph (U : Type) where
  steps : List (GraphStep U) := []
  outputs : List (StepId × OutputKind) := []

structure Generator (U : Type) where
  name : String
  graph : Graph U

namespace Generator

variable {U : Type}

def stepCount (g : Generator U) : Nat :=
  g.graph.steps.length

def stepKinds (g : Generator U) : List StepKind :=
  g.graph.steps.map (·.kind)

end Generator

end Regen
