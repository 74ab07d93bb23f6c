import Regen.Graph.Basic
import Regen.Run.Marking
import Regen.Store

/-!
Running one step of a graph: its old tables are read from the store of the last
run, the tables of its inputs from the store of the run that is going on.
-/

namespace Regen

open Syntax

structure StepContext (U : Type) where
  site : Site
  previous : Store (Carrier U)
  current : Store (Carrier U)
  trees : List Tree
  texts : List TextFile

structure StepResult (U : Type) where
  tables : List (Part × AnyTable (Carrier U))
  executions : Nat := 0
  subSteps : List SubStep := []
  journal : Journal := []

namespace StepContext

variable {U : Type}

def key (c : StepContext U) (part : Part) : TableKey :=
  ⟨c.site.graph, c.site.step, part⟩

def old (c : StepContext U) (type : DataType) (part : Part) :
    Except RunError (Option (Table (Carrier U type))) :=
  c.previous.get type (c.key part)

def input (c : StepContext U) (type : DataType) (step : StepId) :
    Except RunError (Table (Carrier U type)) :=
  c.current.getD type (.output c.site.graph step)

def oldInput (c : StepContext U) (type : DataType) (step : StepId) :
    Except RunError (Table (Carrier U type)) :=
  c.previous.getD type (.output c.site.graph step)

end StepContext

namespace StepResult

variable {U : Type}

def ofOutput (type : DataType) (w : Work (Table (Carrier U type))) :
    StepResult U where
  tables := [(.output, ⟨type, w.tables⟩)]
  executions := w.executions
  journal := w.journal

def ofKept (part : Part) (kept type : DataType)
    (w : Work (Table (Carrier U kept) × Table (Carrier U type))) :
    StepResult U where
  tables := [(part, ⟨kept, w.tables.1⟩), (.output, ⟨type, w.tables.2⟩)]
  executions := w.executions
  journal := w.journal

def ofMarked (w : Work (MarkerTables × List SubStep)) : StepResult U where
  tables :=
    [(.aliases, ⟨.perTree .aliases, w.tables.1.aliases⟩),
      (.units, ⟨.perTree .node, w.tables.1.units⟩),
      (.globalAliases, ⟨.aliases, w.tables.1.globals⟩),
      (.found, ⟨.perTree .scan, w.tables.1.found⟩),
      (.output, ⟨.marked, w.tables.1.output⟩)]
  executions := w.executions
  subSteps := w.tables.2
  journal := w.journal

end StepResult

namespace Step

variable {U : Type} [BEq U]

open Carrier (same)

def run (c : StepContext U) : Step U → Except RunError (StepResult U)
  | .trees => do
      let old ← c.old .tree .output
      return .ofOutput .tree (Work.trees c.trees old)
  | .texts => do
      let old ← c.old .text .output
      return .ofOutput .text (Work.texts c.texts old)
  | .filter input β accepts map => do
      let table ← c.input .tree input
      let items ← c.old (.perTree (.list β)) .perTree
      let old ← c.old β .output
      return .ofKept .perTree (.perTree (.list β)) β
        (Work.filter c.site (same β) accepts map table items old)
  | .marked input marker shape => do
      let table ← c.input .tree input
      let old : OldMarkerTables :=
        { aliases := ← c.old (.perTree .aliases) .aliases
          units := ← c.old (.perTree .node) .units
          globals := ← c.old .aliases .globalAliases
          found := ← c.old (.perTree .scan) .found
          output := ← c.old .marked .output }
      return .ofMarked (Work.marked c.site marker shape table old)
  | .select input α β map => do
      let table ← c.input α input
      let old ← c.old β .output
      let oldTable ← c.oldInput α input
      return .ofOutput β
        (Work.select c.site (same α) (same β) map oldTable table old)
  | .selectValue input α β map => do
      let table ← c.input α input
      let old ← c.old β .output
      return .ofOutput β (Work.selectValue c.site (same β) map table old)
  | .selectMany input α β map => do
      let table ← c.input α input
      let groups ← c.old (.list β) .perInput
      let old ← c.old β .output
      let oldTable ← c.oldInput α input
      return .ofKept .perInput (.list β) β
        (Work.selectMany c.site (same α) (same β) map oldTable table groups old)
  | .collect input α => do
      let table ← c.input α input
      let old ← c.old (.list α) .output
      return .ofOutput (.list α) (Work.collect (same α) table old)
  | .combine left right α β => do
      let leftTable ← c.input α left
      let rightTable ← c.input β right
      let old ← c.old (.pair α β) .output
      let oldLeft ← c.oldInput α left
      return .ofOutput (.pair α β)
        (Work.combine (same α) (same β) oldLeft leftTable rightTable old)
  | .output input _ => do
      let table ← c.input .source input
      let old ← c.old .source .output
      return .ofOutput .source (Work.output (same .source) table old)

end Step

end Regen
