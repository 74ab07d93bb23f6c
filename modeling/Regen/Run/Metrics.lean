import Regen.Run.Result
import Regen.Text.FixedPoint

/-!
Figures of a step in one run: how much of its output was kept, how much was
computed anew, how often it computed at all, and how long it took.
-/

namespace Regen

structure StepMetrics where
  name : String
  cached : Nat
  recomputed : Nat
  removed : Nat
  /-- One if the step computed something and nothing new came out. -/
  earlyCutoffs : Nat
  executions : Nat
  /-- The time taken, in nanoseconds; kept to 64 bits. -/
  totalTime : Nat
  deriving DecidableEq, Repr

def StepRun.metrics (r : StepRun) : StepMetrics :=
  let recomputed := r.count .added + r.count .modified
  { name := r.name
    cached := r.count .cached
    recomputed := recomputed
    removed := r.count .removed
    earlyCutoffs := if 0 < r.executions ∧ recomputed = 0 then 1 else 0
    executions := r.executions
    totalTime := r.elapsed % Nat.pow 2 64 }

def GeneratorRun.metrics (r : GeneratorRun) : List StepMetrics :=
  r.steps.map (·.metrics)

namespace StepMetrics

def hitRate (m : StepMetrics) : Float :=
  let total := m.cached + m.recomputed
  if total = 0 then 0 else Float.ofNat m.cached / Float.ofNat total

def seconds (m : StepMetrics) : Nat × Nat :=
  (m.totalTime / 1000000000, m.totalTime % 1000000000)

def milliseconds (m : StepMetrics) : Float :=
  let (whole, rest) := m.seconds
  (Float.ofNat whole + Float.ofNat rest / 1e9) * 1000

def summary (m : StepMetrics) : String :=
  "Step: " ++ m.name ++ "\n" ++
    "  Cached: " ++ toString m.cached ++
    " | Recomputed: " ++ toString m.recomputed ++
    " | Removed: " ++ toString m.removed ++
    " | Hit Rate: " ++ Text.fixedPoint 1 (m.hitRate * 100) ++ "%\n" ++
    "  Executions: " ++ toString m.executions ++
    " | Early Cutoffs: " ++ toString m.earlyCutoffs ++
    " | Time: " ++ Text.fixedPoint 2 m.milliseconds ++ "ms\n"

end StepMetrics

end Regen
