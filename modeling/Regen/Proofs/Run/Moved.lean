import Regen.Proofs.Run.Equations
import Regen.Proofs.Run.Lasting

/-!
# The same step in another place

What a step does depends on the tables that it reads and on nothing else: not on
the number of its graph, nor on what else the stores hold.  In a graph of
another number it puts out the same tables and reports the same of itself; only
the calls in its journal come from another site.
-/

namespace Regen

open Syntax

def Action.moved (g : GraphId) : Action → Action
  | .call kind site => .call kind ⟨g, site.step⟩
  | .poll => .poll
  | .report event => .report event

def Journal.moved (g : GraphId) (j : Journal) : Journal :=
  j.map (Action.moved g)

namespace Journal

variable {g : GraphId}

@[simp] theorem moved_nil : Journal.moved g [] = [] := rfl

@[simp] theorem moved_append (j k : Journal) :
    Journal.moved g (j ++ k) = Journal.moved g j ++ Journal.moved g k :=
  List.map_append

theorem moved_flatMap {α : Type} (as : List α) (f : α → Journal) :
    Journal.moved g (as.flatMap f) = as.flatMap fun a => (f a).moved g :=
  List.map_flatMap

theorem beats_moved (g : GraphId) (j : Journal) :
    (j.moved g).beats = j.beats := by
  rw [beats, moved, List.filterMap_map]
  refine List.filterMap_congr fun a _ => ?_
  cases a <;> rfl

end Journal

private theorem Plan.moved_journal {α β : Type} (g : GraphId) (visit : α → Journal)
    (p : Plan α β) :
    (p.journal visit).moved g = p.journal fun a => (visit a).moved g := by
  rw [journal, Journal.moved_flatMap, journal]
  refine List.flatMap_congr fun (a, kept) _ => ?_
  cases kept <;> rfl

namespace Work

variable {α β γ ρ : Type} {g : GraphId}

def moved (g : GraphId) (w : Work ρ) : Work ρ :=
  { w with journal := w.journal.moved g }

private theorem moved_unlessIdle {idle : Bool} {old : Option (Table β)}
    {work work' : Table β → Work (Table β)}
    (h : ∀ t, work' t = (work t).moved g) :
    unlessIdle idle old work' = (unlessIdle idle old work).moved g := by
  cases old with
  | none => exact h _
  | some t =>
      cases idle with
      | false => exact h _
      | true => rfl

private theorem moved_unlessIdle₂ {idle : Bool} {old₁ : Option (Table β)}
    {old₂ : Option (Table γ)}
    {work work' : Table β → Table γ → Work (Table β × Table γ)}
    (h : ∀ t u, work' t u = (work t u).moved g) :
    unlessIdle₂ idle old₁ old₂ work' =
      (unlessIdle₂ idle old₁ old₂ work).moved g := by
  cases old₁ with
  | none => exact h _ _
  | some t =>
      cases old₂ with
      | none => exact h _ _
      | some u =>
          cases idle with
          | false => exact h _ _
          | true => rfl

variable (site : Site) (sameIn : α → α → Bool) (sameOut : β → β → Bool)

private theorem moved_select (map : α → β) (oldInput input : Table α)
    (old : Option (Table β)) :
    select ⟨g, site.step⟩ sameIn sameOut map oldInput input old =
      (select site sameIn sameOut map oldInput input old).moved g :=
  moved_unlessIdle fun _ => by
    rw [moved, Plan.moved_journal]
    rfl

private theorem moved_selectValue (map : α → β) (input : Table α)
    (old : Option (Table β)) :
    selectValue ⟨g, site.step⟩ sameOut map input old =
      (selectValue site sameOut map input old).moved g :=
  moved_unlessIdle fun _ => by
    rw [moved, Journal.moved_flatMap]
    rfl

private theorem moved_selectMany (map : α → List β) (oldInput input : Table α)
    (oldGroups : Option (Table (List β))) (old : Option (Table β)) :
    selectMany ⟨g, site.step⟩ sameIn sameOut map oldInput input oldGroups old =
      (selectMany site sameIn sameOut map oldInput input oldGroups old).moved
        g :=
  moved_unlessIdle₂ fun _ _ => by
    rw [moved, Plan.moved_journal]
    rfl

private theorem moved_collect (input : Table α) (old : Option (Table (List α))) :
    collect sameIn input old = (collect sameIn input old).moved g :=
  moved_unlessIdle fun _ => rfl

private theorem moved_combine (oldLeft left : Table α) (right : Table β)
    (old : Option (Table (α × β))) :
    combine sameIn sameOut oldLeft left right old =
      (combine sameIn sameOut oldLeft left right old).moved g := by
  refine moved_unlessIdle fun _ => ?_
  split
  · rfl
  · rw [moved, Plan.moved_journal]
    rfl

private theorem moved_output (input : Table α) (old : Option (Table α)) :
    output sameIn input old = (output sameIn input old).moved g :=
  moved_unlessIdle fun _ => rfl

private theorem moved_walkCalls (accepts : Node → Bool) (t : Tree) :
    (walkCalls site accepts t).moved g =
      walkCalls ⟨g, site.step⟩ accepts t := by
  rw [walkCalls, Journal.moved_flatMap, walkCalls]
  refine List.flatMap_congr fun n _ => ?_
  cases accepts n <;> rfl

private theorem moved_filter (accepts : Node → Bool) (map : Tree → Node → β)
    (input : Table Tree) (oldItems : Option (Table (PerTree (List β))))
    (old : Option (Table β)) :
    filter ⟨g, site.step⟩ sameOut accepts map input oldItems old =
      (filter site sameOut accepts map input oldItems old).moved g :=
  moved_unlessIdle₂ fun _ _ => by
    rw [moved, Journal.moved_append, Plan.moved_journal]
    simp only [moved_walkCalls]
    rfl

private theorem moved_scanJournal (scan : Node → Scan) (unit : PerTree Node) :
    (scanJournal site scan unit).moved g =
      scanJournal ⟨g, site.step⟩ scan unit := by
  rw [scanJournal, Journal.moved_append, Journal.moved, List.map_replicate]
  rfl

private theorem moved_scans (scan : Node → Scan) (changed : List String)
    (units : Table (PerTree Node)) (old : Option (Table (PerTree Scan))) :
    scans ⟨g, site.step⟩ scan changed units old =
      (scans site scan changed units old).moved g := by
  simp only [scans, moved, Plan.moved_journal, moved_scanJournal]

private theorem moved_marked (marker : Marker) (shape : Shape) (input : Table Tree)
    (old : OldMarkerTables) :
    marked ⟨g, site.step⟩ marker shape input old =
      (marked site marker shape input old).moved g := by
  simp only [marked, moved_scans]
  rfl

end Work

variable {U : Type}

namespace StepResult

def moved (g : GraphId) (result : StepResult U) : StepResult U :=
  { result with journal := result.journal.moved g }

private theorem moved_ofOutput (g : GraphId) {type : DataType}
    {w w' : Work (Table (Carrier U type))} (h : w' = w.moved g) :
    ofOutput type w' = (ofOutput type w).moved g := by
  rw [h]
  rfl

private theorem moved_ofKept (g : GraphId) {part : Part} {kept type : DataType}
    {w w' : Work (Table (Carrier U kept) × Table (Carrier U type))}
    (h : w' = w.moved g) :
    ofKept part kept type w' = (ofKept part kept type w).moved g := by
  rw [h]
  rfl

end StepResult

/-- What a step may look at in one place is what it may look at in another. -/
structure SameView (c c' : StepContext U) (s : Step U) : Prop where
  step : c.site.step = c'.site.step
  own : ∀ part, c.previous.find? (c.key part) = c'.previous.find? (c'.key part)
  inputs : ∀ x ∈ s.reads, c.current.find? (.output c.site.graph x.1) =
    c'.current.find? (.output c'.site.graph x.1)
  oldInputs : ∀ x ∈ s.reads, c.previous.find? (.output c.site.graph x.1) =
    c'.previous.find? (.output c'.site.graph x.1)
  trees : s = .trees → c.trees = c'.trees
  texts : s = .texts → c.texts = c'.texts

namespace SameView

variable {c c' : StepContext U} {s : Step U} (h : SameView c c' s)

include h

theorem old? (type : DataType) (part : Part) :
    c.old? type part = c'.old? type part := by
  rw [StepContext.old?, StepContext.old?, Store.at?, Store.at?, h.own]

theorem read {x : StepId × Cardinality × DataType} (hx : x ∈ s.reads) :
    c.read x.2.2 x.1 = c'.read x.2.2 x.1 := by
  rw [StepContext.read, StepContext.read, Store.read, Store.read, Store.at?,
    Store.at?, h.inputs x hx]

theorem oldRead {x : StepId × Cardinality × DataType} (hx : x ∈ s.reads) :
    c.oldRead x.2.2 x.1 = c'.oldRead x.2.2 x.1 := by
  rw [StepContext.oldRead, StepContext.oldRead, Store.read, Store.read,
    Store.at?, Store.at?, h.oldInputs x hx]

theorem site : c'.site = ⟨c'.site.graph, c.site.step⟩ := by
  rw [h.step]

end SameView

namespace Step

variable [BEq U] {c c' : StepContext U} {s : Step U}

/-- A step with the same view does the same, calls from its own site apart. -/
theorem evaluate_moved (h : SameView c c' s) :
    s.evaluate c' = (s.evaluate c).moved c'.site.graph := by
  have hold := h.old?
  cases s with
  | trees =>
      rw [evaluate, evaluate, ← h.trees rfl, ← hold]
      rfl
  | texts =>
      rw [evaluate, evaluate, ← h.texts rfl, ← hold]
      rfl
  | filter input β accepts map =>
      have hread := h.read (List.mem_singleton_self _)
      rw [evaluate, ← hread, ← hold, ← hold, h.site]
      exact StepResult.moved_ofKept _ (Work.moved_filter ..)
  | marked input marker shape =>
      have hread := h.read (List.mem_singleton_self _)
      have hmarkers : oldMarkerTables c' = oldMarkerTables c := by
        simp only [oldMarkerTables, hold]
      rw [evaluate, ← hread, hmarkers, h.site, Work.moved_marked]
      rfl
  | select input α β map =>
      have hread := h.read (List.mem_singleton_self _)
      have holdRead := h.oldRead (List.mem_singleton_self _)
      rw [evaluate, ← hread, ← holdRead, ← hold, h.site]
      exact StepResult.moved_ofOutput _ (Work.moved_select ..)
  | selectValue input α β map =>
      have hread := h.read (List.mem_singleton_self _)
      rw [evaluate, ← hread, ← hold, h.site]
      exact StepResult.moved_ofOutput _ (Work.moved_selectValue ..)
  | selectMany input α β map =>
      have hread := h.read (List.mem_singleton_self _)
      have holdRead := h.oldRead (List.mem_singleton_self _)
      rw [evaluate, ← hread, ← holdRead, ← hold, ← hold, h.site]
      exact StepResult.moved_ofKept _ (Work.moved_selectMany ..)
  | collect input α =>
      have hread := h.read (List.mem_singleton_self _)
      rw [evaluate, ← hread, ← hold]
      exact StepResult.moved_ofOutput _ (Work.moved_collect ..)
  | combine left right α β =>
      have hleft := h.read (x := (left, .many, α)) (by simp [reads])
      have hright := h.read (x := (right, .one, β)) (by simp [reads])
      have holdRead := h.oldRead (x := (left, .many, α)) (by simp [reads])
      rw [evaluate, ← hleft, ← hright, ← holdRead, ← hold]
      exact StepResult.moved_ofOutput _ (Work.moved_combine ..)
  | output input kind =>
      have hread := h.read (List.mem_singleton_self _)
      rw [evaluate, ← hread, ← hold]
      exact StepResult.moved_ofOutput _ (Work.moved_output ..)

end Step

/-! ## One step of a run -/

namespace RunContext

variable [BEq U]

structure Agree (r r' : RunContext U) (g g' : GraphId) (s : GraphStep U)
    (tables tables' : Store (Carrier U)) : Prop where
  options : r.options = r'.options
  keeps : r.Keeps g s ↔ r'.Keeps g' s
  view : SameView (r.stepContext g s.id tables) (r'.stepContext g' s.id tables')
    s.step

namespace Agree

variable {r r' : RunContext U} {g g' : GraphId} {s : GraphStep U}
  {tables tables' : Store (Carrier U)} (h : Agree r r' g g' s tables tables')

include h

theorem evaluate : s.step.evaluate (r'.stepContext g' s.id tables') =
    (s.step.evaluate (r.stepContext g s.id tables)).moved g' :=
  Step.evaluate_moved h.view

omit [BEq U] in
theorem track (subSteps : List SubStep) (states : List Provenance)
    (executions : Nat) :
    r'.track s subSteps states executions =
      r.track s subSteps states executions := by
  rw [RunContext.track, RunContext.track, h.options]

theorem published (part : Part) :
    r'.published g' s tables' part = r.published g s tables part := by
  have hown : r.previous.find? ⟨g, s.id, part⟩ =
      r'.previous.find? ⟨g', s.id, part⟩ := h.view.own part
  simp only [RunContext.published, h.options, h.keeps, h.evaluate, hown]
  rfl

theorem publishedStates : r'.publishedStates g' s tables' =
    r.publishedStates g s tables := by
  rw [RunContext.publishedStates, h.published, RunContext.publishedStates]

theorem reported :
    r'.reported g' s tables' = r.reported g s tables := by
  simp only [RunContext.reported, h.options, h.keeps, h.evaluate, h.track,
    h.publishedStates]
  rfl

theorem actions (name : String) :
    r'.actions g' name s tables' = (r.actions g name s tables).moved g' := by
  simp only [RunContext.actions, h.options, h.keeps, h.evaluate,
    h.publishedStates]
  split
  · rfl
  · split
    · rfl
    · simp only [StepResult.moved, Journal.moved, List.map_cons,
        List.map_append, List.map_nil, Action.moved]

end Agree

end RunContext

end Regen
