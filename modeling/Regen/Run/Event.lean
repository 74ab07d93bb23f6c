import Regen.Key
import Regen.Syntax.Tree
import Regen.TextEdit

/-!
Events that a run reports while it goes on, each with a level, a message and
named details.
-/

namespace Regen

open Syntax

inductive Mode where
  /-- Every step, compared with the previous tables. -/
  | full
  /-- Only the steps that read texts; the others keep their tables. -/
  | edits
  deriving DecidableEq, Repr

def Mode.label : Mode → String
  | .full => "full"
  | .edits => "edits"

structure Revision where
  count : Nat
  deriving DecidableEq, Repr

namespace Revision

def zero : Revision := ⟨0⟩

def next (r : Revision) : Revision := ⟨r.count + 1⟩

def label (r : Revision) : String :=
  "r" ++ toString r.count

/-- Revisions fit into 64 bits, so the last one has no successor. -/
def next? (r : Revision) : Option Revision :=
  if r.count + 1 < Nat.pow 2 64 then some r.next else none

end Revision

inductive Level where
  | warn
  | info
  | debug
  | trace
  deriving DecidableEq, Repr

def Level.label : Level → String
  | .warn => "WARN"
  | .info => "INFO"
  | .debug => "DEBUG"
  | .trace => "TRACE"

inductive Event where
  | evaluatedStep (generator : String) (step : StepId) (name : String)
      (entries executions : Nat)
  | walkedFile (step : StepId) (tree : TreeId) (found : Nat)
  | rewalkedTrees (step : StepId) (walked : Nat)
  | runComplete (mode : Mode) (revision : Revision) (sources : Nat)
  | editsFailed (failure : EditFailure) (pending : Nat)
  | skippedEdit (path : String) (failure : EditFailure)
  deriving DecidableEq, Repr

inductive Detail where
  | number (n : Nat)
  | text (s : String)
  deriving DecidableEq, Repr

namespace Event

def level : Event → Level
  | .evaluatedStep .. => .debug
  | .walkedFile .. | .rewalkedTrees .. => .trace
  | .runComplete .. => .info
  | .editsFailed .. | .skippedEdit .. => .warn

def message : Event → String
  | .evaluatedStep .. => "evaluated step"
  | .walkedFile .. => "selector walked file"
  | .rewalkedTrees .. => "filter transform re-walked trees"
  | .runComplete .. => "driver run complete"
  | .editsFailed .. => "incremental edit application failed"
  | .skippedEdit .. => "skipping pending edit"

def details : Event → List (String × Detail)
  | .evaluatedStep generator step name entries executions =>
      [("generator", .text generator), ("node", .text step.label),
        ("step", .text name), ("entries", .number entries),
        ("executions", .number executions)]
  | .walkedFile step tree found =>
      [("node", .text step.label), ("tree", .text tree.label),
        ("matches", .number found)]
  | .rewalkedTrees step walked =>
      [("node", .text step.label), ("walked", .number walked)]
  | .runComplete mode revision sources =>
      [("mode", .text mode.label), ("revision", .text revision.label),
        ("sources", .number sources)]
  | .editsFailed failure pending =>
      [("failure", .text failure.message), ("pending", .number pending)]
  | .skippedEdit path failure =>
      [("path", .text path), ("failure", .text failure.message)]

end Event

end Regen
