import Regen.DataType
import Regen.Run.Event
import Regen.Table.Basic

/-!
What a run hands back: for every generator its sources and, with step tracking,
what the named steps did.
-/

namespace Regen

/-- What a named step did in one run.  A run that is not timed takes no time. -/
structure StepRun where
  name : String
  step : StepId
  states : List Provenance
  executions : Nat
  elapsed : Nat := 0
  deriving DecidableEq, Repr

namespace StepRun

def count (r : StepRun) (state : Provenance) : Nat :=
  r.states.countP (· == state)

def isCached (r : StepRun) : Bool :=
  r.states.all (· == .cached)

end StepRun

structure GeneratorRun where
  generator : String
  sources : List Generated := []
  steps : List StepRun := []
  deriving DecidableEq, Repr

namespace GeneratorRun

def source? (r : GeneratorRun) (hint : String) : Option Generated :=
  r.sources.find? (·.hint == hint)

def step? (r : GeneratorRun) (name : String) : Option StepRun :=
  r.steps.find? (·.name == name)

def sameSources (a b : GeneratorRun) : Bool :=
  a.generator == b.generator && a.sources == b.sources

end GeneratorRun

structure RunResult where
  revision : Revision
  generators : List GeneratorRun := []
  deriving DecidableEq, Repr

namespace RunResult

def generator? (r : RunResult) (name : String) : Option GeneratorRun :=
  r.generators.find? (·.generator == name)

def sources (r : RunResult) : List Generated :=
  r.generators.flatMap (·.sources)

/-- The same sources from the same generators; revisions and steps may differ. -/
def sameSources (a b : RunResult) : Bool :=
  sameList GeneratorRun.sameSources a.generators b.generators

theorem sameSources_refl (r : RunResult) : r.sameSources r = true :=
  sameList_refl (fun g => by simp [GeneratorRun.sameSources]) r.generators

end RunResult

end Regen
