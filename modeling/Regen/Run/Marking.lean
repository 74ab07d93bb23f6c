import Regen.Run.Work

/-!
The work of a marker selector.  It takes the global aliases of every file, joins
them to the aliases of the compilation, and scans the files.  A file keeps its
last scan as long as its syntax is the same and no global name that the scan
looked up has got other targets.
-/

namespace Regen

open Syntax

structure MarkerTables where
  aliases : Table (PerTree AliasSet)
  units : Table (PerTree Node)
  globals : Table AliasSet
  found : Table (PerTree Scan)
  output : Table Marked

structure OldMarkerTables where
  aliases : Option (Table (PerTree AliasSet)) := none
  units : Option (Table (PerTree Node)) := none
  globals : Option (Table AliasSet) := none
  found : Option (Table (PerTree Scan)) := none
  output : Option (Table Marked) := none

structure SubStep where
  suffix : String
  states : List Provenance
  executions : Nat
  deriving DecidableEq, Repr

namespace Work

def subStep {α : Type} (suffix : String) (w : Work (Table α)) : SubStep :=
  ⟨suffix, w.tables.states, w.executions⟩

def fileAliases (input : Table Tree) (old : Option (Table (PerTree AliasSet))) :
    Work (Table (PerTree AliasSet)) :=
  let old := old.getD .empty
  let plan := Plan.byTree (·.id) (fun _ => true) old.values input.live
  { tables :=
      Table.diffOn (·.tree) (· == ·) old
        (plan.items (·.id) fun t => AliasSet.ofRoot t.root)
    executions := plan.computed }

def fileRoots (input : Table Tree) (old : Option (Table (PerTree Node))) :
    Work (Table (PerTree Node)) :=
  { tables :=
      Table.diffOn (·.tree) (· == ·) (old.getD .empty)
        (input.values.map fun t => ⟨t.id, t.root⟩) }

def globalAliases (aliases : Table (PerTree AliasSet))
    (old : Option (Table AliasSet)) : Work (Table AliasSet) :=
  let idle := aliases.isCached && old.any fun t => !t.entries.isEmpty
  unlessIdle idle old fun old =>
    { tables :=
        Table.diff (· == ·) old
          [AliasSet.concat (aliases.values.map (·.item))]
      executions := 1 }

def changedNames (old : Option (Table AliasSet)) (globals : Table AliasSet) :
    List String :=
  if globals.isCached then []
  else
    AliasSet.changedNames ((old.bind (·.single?)).getD {})
      (globals.single?.getD {})

def untouched (changed : List String) (scan : Scan) : Bool :=
  scan.consulted.all fun name => !changed.contains name

/-- The looks at the cancellation during a scan, and the report after it. -/
def scanJournal (site : Site) (scan : Node → Scan) (unit : PerTree Node) :
    Journal :=
  List.replicate (Marker.visits unit.item) .poll ++
    [.report (.walkedFile site.step unit.tree (scan unit.item).nodes.length)]

def scans (site : Site) (scan : Node → Scan) (changed : List String)
    (units : Table (PerTree Node)) (old : Option (Table (PerTree Scan))) :
    Work (Table (PerTree Scan)) :=
  let old := old.getD .empty
  let plan := Plan.byTree (·.tree) (untouched changed) old.values units.live
  { tables :=
      Table.diffOn (·.tree) (· == ·) old
        (plan.items (·.tree) fun unit => scan unit.item)
    executions := plan.computed
    journal := plan.journal (scanJournal site scan) }

def foundIn (scans : List (PerTree Scan)) : List Marked :=
  scans.flatMap fun s => s.item.nodes.map fun n => ⟨s.tree, n⟩

def marked (site : Site) (marker : Marker) (shape : Shape) (input : Table Tree)
    (old : OldMarkerTables) : Work (MarkerTables × List SubStep) :=
  let aliases := fileAliases input old.aliases
  let units := fileRoots input old.units
  let globals := globalAliases aliases.tables old.globals
  let scan := marker.scanFile shape (globals.tables.single?.getD {})
  let changed := changedNames old.globals globals.tables
  let found := scans site scan changed units.tables old.found
  let output := unlessIdle found.tables.isCached old.output fun old =>
    { tables := Table.diff (· == ·) old (foundIn found.tables.values) }
  let tables :=
    ⟨aliases.tables, units.tables, globals.tables, found.tables, output.tables⟩
  { tables :=
      (tables,
        [subStep "aliases" aliases, subStep "units" units,
          subStep "global_aliases" globals,
          subStep "matches" found])
    executions := found.executions
    journal := found.journal }

end Work

end Regen
