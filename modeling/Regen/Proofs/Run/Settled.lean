import Regen.Proofs.Run.Carried
import Regen.Proofs.Run.Outcome

/-!
# The inputs of the last run once more

A run that gets the trees and the texts of the last run in their old order puts
every table of that run back under its key, with all entries cached.  On the way
no step calls a function or walks a file.
-/

namespace Regen

open Syntax

variable {U : Type}

private theorem Table.all_states {α : Type} (t : Table α) :
    t.states.all (· == .cached) = t.isCached := by
  rw [states, List.all_map]
  rfl

def SubStep.Idle (sub : SubStep) : Prop :=
  sub.executions = 0 ∧ sub.states.all (· == .cached) = true

def StepRun.Idle (run : StepRun) : Prop :=
  run.executions = 0 ∧ run.isCached = true

def Action.Idle : Action → Prop
  | .poll => True
  | .call _ _ => False
  | .report (.evaluatedStep _ _ _ _ executions) => executions = 0
  | .report (.runComplete _ _ _) => True
  | .report _ => False

namespace Work

private theorem subStep_idle {α : Type} (suffix : String) {w : Work (Table α)}
    (hcached : w.tables.isCached = true) (hexecutions : w.executions = 0) :
    (subStep suffix w).Idle :=
  ⟨hexecutions, (Table.all_states _).trans hcached⟩

end Work

structure StepResult.Idle (x : StepResult U) : Prop where
  executions : x.executions = 0
  subSteps : ∀ sub ∈ x.subSteps, sub.Idle
  journal : ∀ a ∈ x.journal, a = .poll

namespace Step

variable [BEq U] {c : StepContext U} {s : Step U}

private theorem Resident.idle_plain (h : Resident c s) (hplain : s.IsPlain)
    (hcached : ∀ x ∈ s.reads, (c.read x.2.2 x.1).isCached = true) :
    (s.evaluate c).Idle := by
  cases s with
  | trees => exact hplain.elim
  | texts => exact hplain.elim
  | marked input marker shape => exact hplain.elim
  | combine left right α β =>
      have hleft := hcached (left, .many, α) (by simp [reads])
      have hright := hcached (right, .one, β) (by simp [reads])
      have hold : c.old? (.pair α β) .output = some _ := h.old?_eq .output rfl
      rw [evaluate, Work.combine, hleft, hright, hold]
      exact ⟨rfl, List.forall_mem_nil _, List.forall_mem_nil _⟩
  | filter input β accepts map =>
      have hin := hcached _ (List.mem_singleton_self _)
      have hold : c.old? β .output = some _ := h.old?_eq .output rfl
      rw [evaluate, Work.filter, hin, hold, h.old?_eq .perTree rfl]
      exact ⟨rfl, List.forall_mem_nil _, List.forall_mem_nil _⟩
  | selectMany input α β map =>
      have hin := hcached _ (List.mem_singleton_self _)
      have hold : c.old? β .output = some _ := h.old?_eq .output rfl
      rw [evaluate, Work.selectMany, hin, hold, h.old?_eq .perInput rfl]
      exact ⟨rfl, List.forall_mem_nil _, List.forall_mem_nil _⟩
  | select input α β map =>
      have hin := hcached _ (List.mem_singleton_self _)
      have hold : c.old? β .output = some _ := h.old?_eq .output rfl
      rw [evaluate, Work.select, hin, hold]
      exact ⟨rfl, List.forall_mem_nil _, List.forall_mem_nil _⟩
  | selectValue input α β map =>
      have hin := hcached _ (List.mem_singleton_self _)
      have hold : c.old? β .output = some _ := h.old?_eq .output rfl
      rw [evaluate, Work.selectValue, hin, hold]
      exact ⟨rfl, List.forall_mem_nil _, List.forall_mem_nil _⟩
  | collect input α =>
      have hin := hcached _ (List.mem_singleton_self _)
      have hold : c.old? (.list α) .output = some _ := h.old?_eq .output rfl
      rw [evaluate, Work.collect, hin, hold]
      exact ⟨rfl, List.forall_mem_nil _, List.forall_mem_nil _⟩
  | output input kind =>
      have hin := hcached _ (List.mem_singleton_self _)
      have hold : c.old? .source .output = some _ := h.old?_eq .output rfl
      rw [evaluate, Work.output, hin, hold]
      exact ⟨rfl, List.forall_mem_nil _, List.forall_mem_nil _⟩

private theorem Resident.idle_marked {input : StepId} {marker : Marker} {shape : Shape}
    (h : Resident c (.marked input marker shape))
    (haligned : (c.previous.markerTables c.site.graph c.site.step).Aligned
      (c.read .tree input).values)
    (hnodup : ((c.read .tree input).values.map (·.id)).Nodup)
    (hcached : (c.read .tree input).isCached = true) :
    ((Step.marked input marker shape).evaluate c).Idle := by
  obtain ⟨haliases, hunits, hglobals, hfound, -⟩ :=
    @Work.marked_of_isCached c.site marker shape _ _ _ haligned hnodup (.refl _)
      hcached
  have hchanged := Work.changedNames_eq_nil haligned hnodup (.refl _) hcached
  have hscans := Work.all_kept_scans haligned hnodup (.refl _)
  rw [evaluate, h.oldMarkerTables_eq]
  constructor
  case executions =>
    simp only [Work.marked, MarkerTables.toOld, StepResult.ofMarked]
    rw [hchanged]
    exact Plan.computed_of_kept hscans
  case journal =>
    simp only [Work.marked, MarkerTables.toOld, StepResult.ofMarked]
    rw [hchanged]
    exact Plan.journal_of_kept hscans _
  case subSteps =>
    have hglobals' := Work.globalAliases_eq haligned hnodup (.refl _) hcached
    have hscans' := Plan.computed_of_kept hscans
    simp only [Work.marked, MarkerTables.toOld, StepResult.ofMarked,
      List.forall_mem_cons, List.not_mem_nil, false_imp_iff, implies_true,
      and_true] at haliases hunits hfound ⊢
    rw [hchanged] at hfound ⊢
    refine ⟨Work.subStep_idle _ haliases ?_, Work.subStep_idle _ hunits rfl,
      Work.subStep_idle _ ?_ ?_, Work.subStep_idle _ hfound hscans'⟩
    · exact Plan.computed_of_kept
        (Work.all_kept_fileAliases haligned (.refl _) hcached)
    · rw [hglobals']
      exact Table.isCached_settled _
    · rw [hglobals']

end Step

namespace RunContext

section Reports

variable {r : RunContext U} {s : GraphStep U} {states : List Provenance}
  (hstates : states.all (· == .cached) = true)

include hstates

private theorem track_idle {subSteps : List SubStep} (hsubs : ∀ sub ∈ subSteps, sub.Idle)
    {executions : Nat} (hexecutions : executions = 0) :
    ∀ x ∈ r.track s subSteps states executions, x.Idle := by
  unfold track
  split
  · intro x hx
    rcases List.mem_append.1 hx with hx | hx
    · obtain ⟨sub, hsub, rfl⟩ := List.mem_map.1 hx
      exact hsubs sub hsub
    · obtain rfl := List.mem_singleton.1 hx
      exact ⟨hexecutions, hstates⟩
  · nofun

end Reports

variable [BEq U] {r : RunContext U} {g : GraphId} {graph : Graph U}
  {tables : Store (Carrier U)} (w : graph.WellFormed)
  (h : r.Solves g graph tables)
  (haligned : r.previous.Aligned r.options r.trees r.texts g graph)
  (hids : (r.trees.map (·.id)).Nodup) (hpaths : (r.texts.map (·.path)).Nodup)
  {id : StepId} {s : GraphStep U} (hs : graph.step? id = some s)

include w h haligned hids hpaths hs

private theorem Solves.isCached_of_reads {x : StepId × Cardinality × DataType}
    (hx : x ∈ s.step.reads) :
    (tables.read x.2.2 (.output g x.1)).isCached = true := by
  obtain ⟨u, hu, hpromise⟩ := w.promised hs x hx
  have hcached := (h.outputs_of_perm w haligned (fun _ => rfl) hids (.refl _)
    hpaths (.refl _) hu (Step.disables_of_promise? hpromise)).1
  rwa [Step.type_of_promise? hpromise] at hcached

/-- Evaluating any step puts its old tables back, and calls nothing. -/
theorem Solves.evaluate_settled (hout : r.options.disables s.kind = false) :
    (∀ part, (s.step.evaluate (r.stepContext g id tables)).tables.lookup part =
      (r.previous.find? ⟨g, id, part⟩).map (·.settled)) ∧
      (s.step.evaluate (r.stepContext g id tables)).Idle := by
  have hresident : Step.Resident (r.stepContext g id tables) s.step :=
    resident haligned.shaped hs hout tables
  have hcached : ∀ x ∈ s.step.reads,
      ((r.stepContext g id tables).read x.2.2 x.1).isCached = true :=
    fun x hx => h.isCached_of_reads w haligned hids hpaths hs hx
  cases hstep : s.step with
  | trees =>
      rw [hstep] at hresident
      exact ⟨hresident.evaluate_trees (haligned.ofTrees hs hstep) hids,
        rfl, nofun, nofun⟩
  | texts =>
      rw [hstep] at hresident
      exact ⟨hresident.evaluate_texts (haligned.ofTexts hs hstep) hpaths,
        rfl, nofun, nofun⟩
  | marked input marker shape =>
      rw [hstep] at hresident hcached
      obtain ⟨u, hu, hutrees⟩ := w.walked hs input (by rw [hstep]; rfl)
      have hvalues : ((r.stepContext g id tables).read .tree input).values =
          r.trees := h.values_trees w hu (.from haligned fun _ => rfl) hutrees
      have hmarked := haligned.ofMarked hs input marker shape hstep
      have hin := hcached _ (List.mem_singleton_self _)
      rw [← hvalues] at hmarked hids
      exact ⟨hresident.evaluate_marked hmarked hids hin,
        hresident.idle_marked hmarked hids hin⟩
  | _ =>
      rw [hstep] at hresident hcached
      exact ⟨hresident.evaluate_plain trivial hcached,
        hresident.idle_plain trivial hcached⟩

theorem Solves.find?_settled (part : Part) :
    tables.find? ⟨g, id, part⟩ =
      (r.previous.find? ⟨g, id, part⟩).map (·.settled) := by
  cases hout : r.options.disables s.kind with
  | true =>
      have hshape := h.shaped_step w hs (.from haligned fun _ => rfl) part
      have hshape' := haligned.shaped hs part
      rw [hout, if_pos rfl, Option.map_eq_none_iff] at hshape hshape'
      rw [hshape, hshape', Option.map_none]
  | false =>
      by_cases hkeeps : r.Keeps g s
      · exact h.find?_of_keeps w hs hout hkeeps part
      · rw [h.find?_of_runs w hs hout hkeeps]
        exact (h.evaluate_settled w haligned hids hpaths hs hout).1 part

private theorem Solves.publishedStates_cached :
    (r.publishedStates g s tables).all (· == .cached) = true := by
  rw [publishedStates, ← h.step hs,
    h.find?_settled w haligned hids hpaths hs .output]
  cases r.previous.find? ⟨g, id, .output⟩ with
  | none => rfl
  | some t =>
      exact (Table.all_states _).trans (Table.isCached_settled _)

theorem Solves.reported_idle : ∀ x ∈ r.reported g s tables, x.Idle := by
  have hstates := h.publishedStates_cached w haligned hids hpaths hs
  unfold reported
  split
  · nofun
  · next hout =>
    split
    · exact track_idle hstates (List.forall_mem_nil _) rfl
    · have hidle := (h.evaluate_settled w haligned hids hpaths hs
        (Bool.eq_false_iff.2 hout)).2
      rw [w.id_eq hs]
      exact track_idle hstates hidle.subSteps hidle.executions

theorem Solves.actions_idle (name : String) :
    ∀ a ∈ r.actions g name s tables, a.Idle := by
  intro a ha
  rw [actions, List.mem_cons] at ha
  rcases ha with rfl | ha
  · trivial
  · split at ha
    · contradiction
    · next hout =>
      split at ha
      · contradiction
      · have hidle := (h.evaluate_settled w haligned hids hpaths hs
          (Bool.eq_false_iff.2 hout)).2
        rw [w.id_eq hs] at ha
        rcases List.mem_append.1 ha with ha | ha
        · rw [hidle.journal a ha]
          trivial
        · obtain rfl := List.mem_singleton.1 ha
          exact hidle.executions

end RunContext

end Regen
