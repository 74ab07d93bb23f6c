import Regen.Run.Plan
import Regen.Table.Diff

/-!
The work of the steps.  A step reads the tables of its inputs and its own tables
of the last run and puts out new tables.  Where none of its inputs has changed
the old tables are published again, marked as cached; otherwise the step makes a
plan, computes what the plan asks for and compares the outcome with the old
tables.
-/

namespace Regen

open Syntax

/-- What a step puts out, how many results it computed, and what it did. -/
structure Work (ρ : Type) where
  tables : ρ
  executions : Nat := 0
  journal : Journal := []

namespace Work

variable {α β γ : Type}

/--
An old table is published again when the step is idle.  Otherwise `work` gets
the old table, or the empty one if there is none.
-/
def unlessIdle (idle : Bool) (old : Option (Table β))
    (work : Table β → Work (Table β)) : Work (Table β) :=
  match old, idle with
  | some table, true => { tables := table.settled }
  | old, _ => work (old.getD .empty)

def unlessIdle₂ (idle : Bool) (old₁ : Option (Table β)) (old₂ : Option (Table γ))
    (work : Table β → Table γ → Work (Table β × Table γ)) :
    Work (Table β × Table γ) :=
  match old₁, old₂, idle with
  | some table₁, some table₂, true =>
      { tables := (table₁.settled, table₂.settled) }
  | old₁, old₂, _ => work (old₁.getD .empty) (old₂.getD .empty)

/-! ## Inputs -/

def sameFile (a b : Tree) : Bool :=
  a.path == b.path && a.sameRoot b

def trees (input : List Tree) (old : Option (Table Tree)) : Work (Table Tree) :=
  { tables := Table.diffOn (·.id) sameFile (old.getD .empty) input }

def texts (input : List TextFile) (old : Option (Table TextFile)) :
    Work (Table TextFile) :=
  { tables := Table.diffOn (·.path) TextFile.same (old.getD .empty) input }

/-! ## Maps -/

def mapCall (site : Site) : Journal :=
  [.call .map site]

def select (site : Site) (sameIn : α → α → Bool) (sameOut : β → β → Bool)
    (map : α → β) (oldInput input : Table α) (old : Option (Table β)) :
    Work (Table β) :=
  unlessIdle input.isCached old fun old =>
    let plan := Plan.byPlace sameIn (oldInput.values.zip old.values) input.live
    { tables := Table.diff sameOut old (plan.results map)
      executions := plan.computed
      journal := plan.journal fun _ => mapCall site }

def selectValue (site : Site) (sameOut : β → β → Bool) (map : α → β)
    (input : Table α) (old : Option (Table β)) : Work (Table β) :=
  unlessIdle input.isCached old fun old =>
    { tables := Table.diff sameOut old (input.values.map map)
      executions := input.values.length
      journal := input.values.flatMap fun _ => mapCall site }

/-- One group of values per input, and the values of all groups. -/
def selectMany (site : Site) (sameIn : α → α → Bool) (sameOut : β → β → Bool)
    (map : α → List β) (oldInput input : Table α)
    (oldGroups : Option (Table (List β))) (old : Option (Table β)) :
    Work (Table (List β) × Table β) :=
  unlessIdle₂ input.isCached oldGroups old fun oldGroups old =>
    let plan :=
      Plan.byPlace sameIn (oldInput.values.zip oldGroups.values) input.live
    let groups := Table.diff (sameList sameOut) oldGroups (plan.results map)
    { tables := (groups, Table.diff sameOut old groups.values.flatten)
      executions := plan.computed
      journal := plan.journal fun _ => mapCall site }

/-! ## Aggregates -/

def collect (sameIn : α → α → Bool) (input : Table α)
    (old : Option (Table (List α))) : Work (Table (List α)) :=
  unlessIdle input.isCached old fun old =>
    { tables := Table.diff (sameList sameIn) old [input.values]
      executions := 1 }

def samePair (sameLeft : α → α → Bool) (sameRight : β → β → Bool)
    (a b : α × β) : Bool :=
  sameLeft a.1 b.1 && sameRight a.2 b.2

def combine (sameLeft : α → α → Bool) (sameRight : β → β → Bool)
    (oldLeft left : Table α) (right : Table β) (old : Option (Table (α × β))) :
    Work (Table (α × β)) :=
  unlessIdle (left.isCached && right.isCached) old fun old =>
    match right.single? with
    | none => { tables := Table.diff (samePair sameLeft sameRight) old [] }
    | some b =>
        let pairs :=
          if right.isCached then oldLeft.values.zip old.values else []
        let plan := Plan.byPlace sameLeft pairs left.live
        { tables :=
            Table.diff (samePair sameLeft sameRight) old
              (plan.results fun a => (a, b))
          executions := plan.computed
          journal := plan.journal fun _ => [] }

def output (same : α → α → Bool) (input : Table α) (old : Option (Table α)) :
    Work (Table α) :=
  unlessIdle input.isCached old fun old =>
    { tables := Table.diff same old input.values }

/-! ## Filters -/

def accepted (accepts : Node → Bool) (map : Tree → Node → β) (t : Tree) :
    List β :=
  (t.root.preorder.filter accepts).map (map t)

def walkCalls (site : Site) (accepts : Node → Bool) (t : Tree) : Journal :=
  t.root.preorder.flatMap fun n =>
    .poll :: .call .predicate site :: if accepts n then mapCall site else []

/-- What every tree contributes, and the values of all trees. -/
def filter (site : Site) (sameOut : β → β → Bool) (accepts : Node → Bool)
    (map : Tree → Node → β) (input : Table Tree)
    (oldItems : Option (Table (PerTree (List β)))) (old : Option (Table β)) :
    Work (Table (PerTree (List β)) × Table β) :=
  unlessIdle₂ input.isCached oldItems old fun oldItems old =>
    let plan := Plan.byTree (·.id) (fun _ => true) oldItems.values input.live
    let items :=
      Table.diffOn (·.tree) (fun a b => sameList sameOut a.item b.item)
        oldItems (plan.items (·.id) (accepted accepts map))
    { tables := (items, Table.diff sameOut old (items.values.flatMap (·.item)))
      executions := plan.computed
      journal :=
        plan.journal (walkCalls site accepts) ++
          [.report (.rewalkedTrees site.step plan.computed)] }

end Work

end Regen
