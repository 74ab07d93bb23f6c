import Regen.Proofs.Run.Aligned

/-!
# Tables that go on unchanged

Every run leaves tables that are aligned with its inputs, if it found such
tables or none.  Tables kept by a run that absorbs edits are the tables that a
full run would have put there.  And a run over the old inputs in another order
publishes the old output of every step but the two that read the inputs.
-/

namespace Regen

open List (Forall₂)
open Syntax

variable {U : Type} {graph : Graph U} {g : GraphId}

namespace RunContext

/-- The run finds nothing for the graph, or the tables of an earlier run. -/
inductive Resumes (r : RunContext U) (g : GraphId) (graph : Graph U) : Prop
  | afresh (h : ∀ key, key.graph = g → r.previous.find? key = none)
  | from {trees : List Tree} {texts : List TextFile}
      (h : r.previous.Aligned r.options trees texts g graph)
      (same : r.mode = .edits → trees = r.trees)

variable {r : RunContext U}

theorem Resumes.typed (h : r.Resumes g graph) : r.previous.Typed g graph := by
  cases h with
  | afresh h =>
      intro id s hs part t ht
      rw [h _ rfl] at ht
      contradiction
  | «from» h _ => exact Store.Shaped.typed h.shaped

theorem Resumes.aligned (h : r.Resumes g graph) {s : GraphStep U}
    (hkeeps : r.Keeps g s) :
    ∃ texts, r.previous.Aligned r.options r.trees texts g graph := by
  cases h with
  | afresh h =>
      have hthere := hkeeps.2
      rw [Store.contains, h _ rfl] at hthere
      contradiction
  | @«from» trees texts h same =>
      rw [same hkeeps.1.1] at h
      exact ⟨texts, h⟩

theorem disables_of_step {s : GraphStep U} {step : Step U} (options : Options)
    (hstep : s.step = step) (hkind : options.disables step.kind = false) :
    options.disables s.kind = false := by
  rw [GraphStep.kind, hstep, hkind]

variable [BEq U]

section Solution

variable {tables : Store (Carrier U)} (w : graph.WellFormed)
  (h : r.Solves g graph tables) {id : StepId} {s : GraphStep U}
  (hs : graph.step? id = some s)

include w h hs

theorem Solves.find?_of_keeps (hout : r.options.disables s.kind = false)
    (hkeeps : r.Keeps g s) (part : Part) :
    tables.find? ⟨g, id, part⟩ =
      (r.previous.find? ⟨g, id, part⟩).map (·.settled) := by
  rw [h.step hs, published, hout, if_neg (by simp), if_pos hkeeps,
    w.id_eq hs]

theorem Solves.find?_of_runs (hout : r.options.disables s.kind = false)
    (hkeeps : ¬ r.Keeps g s) (part : Part) :
    tables.find? ⟨g, id, part⟩ =
      (s.step.evaluate (r.stepContext g id tables)).tables.lookup part := by
  rw [h.step hs, published, hout, if_neg (by simp), if_neg hkeeps,
    w.id_eq hs]

private theorem Solves.read_of_keeps (hout : r.options.disables s.kind = false)
    (hkeeps : r.Keeps g s) (part : Part) (type : DataType) :
    tables.read type ⟨g, id, part⟩ =
      (r.previous.read type ⟨g, id, part⟩).settled :=
  Store.read_settled (h.find?_of_keeps w hs hout hkeeps part) type

theorem Solves.read_of_runs {step : Step U} (hstep : s.step = step)
    (hout : r.options.disables s.kind = false) (hkeeps : ¬ r.Keeps g s)
    (part : Part) (type : DataType) {t : Table (Carrier U type)}
    (ht : (step.evaluate (r.stepContext g id tables)).tables.lookup part =
      some ⟨type, t⟩) :
    tables.read type ⟨g, id, part⟩ = t := by
  have hfind := h.find?_of_runs w hs hout hkeeps part
  rw [hstep] at hfind
  exact Store.read_of_find? (hfind.trans ht)

theorem Solves.shaped_step (resumes : r.Resumes g graph) (part : Part) :
    (tables.find? ⟨g, id, part⟩).map (·.type) =
      if r.options.disables s.kind then none else s.step.partType part := by
  cases hout : r.options.disables s.kind with
  | true =>
      rw [h.step hs, published, hout]
      rfl
  | false =>
      by_cases hkeeps : r.Keeps g s
      · obtain ⟨texts, haligned⟩ := resumes.aligned hkeeps
        have hshape := haligned.shaped hs part
        rw [hout] at hshape
        rw [h.find?_of_keeps w hs hout hkeeps, Option.map_map]
        exact hshape
      · rw [h.find?_of_runs w hs hout hkeeps, Step.type_lookup_evaluate]
        rfl

theorem Solves.values_trees (resumes : r.Resumes g graph)
    (hstep : s.step = .trees) :
    (tables.read .tree (.output g id)).values = r.trees := by
  have hout := disables_of_step r.options hstep rfl
  by_cases hkeeps : r.Keeps g s
  · obtain ⟨texts, haligned⟩ := resumes.aligned hkeeps
    have hread := h.read_of_keeps w hs hout hkeeps .output .tree
    exact (congrArg Table.values hread).trans
      ((Table.values_settled _).trans (haligned.ofTrees hs hstep))
  · have hread := h.read_of_runs w hs hstep hout hkeeps .output .tree rfl
    exact (congrArg Table.values hread).trans (Work.values_trees _ _)

theorem Solves.values_texts (hstep : s.step = .texts) :
    SameTexts (tables.read .text (.output g id)).values r.texts := by
  have hout := disables_of_step r.options hstep rfl
  have hkeeps : ¬ r.Keeps g s := fun ⟨⟨_, htexts⟩, _⟩ =>
    w.ne_texts hs htexts hstep
  have hread := h.read_of_runs w hs hstep hout hkeeps .output .text rfl
  rw [show tables.read .text (.output g id) = _ from hread]
  exact Work.values_texts _ _

private theorem Solves.markerTables_of_keeps (hout : r.options.disables s.kind = false)
    (hkeeps : r.Keeps g s) :
    tables.markerTables g id = (r.previous.markerTables g id).settled := by
  have hread := h.read_of_keeps w hs hout hkeeps
  rw [Store.markerTables, hread, hread, hread, hread, hread]
  rfl

private theorem Solves.markerTables_of_runs {input : StepId} {marker : Marker}
    {shape : Shape} (hstep : s.step = .marked input marker shape)
    (hkeeps : ¬ r.Keeps g s) :
    tables.markerTables g id =
      (Work.marked ⟨g, id⟩ marker shape (tables.read .tree (.output g input))
        (Step.oldMarkerTables (r.stepContext g id tables))).tables.1 := by
  have hout := disables_of_step r.options hstep rfl
  have hread := h.read_of_runs w hs hstep hout hkeeps
  rw [Store.markerTables, hread .aliases _ rfl, hread .units _ rfl,
    hread .globalAliases _ rfl, hread .found _ rfl, hread .output _ rfl]
  rfl

end Solution

theorem Solves.aligned {tables : Store (Carrier U)} (w : graph.WellFormed)
    (h : r.Solves g graph tables) (resumes : r.Resumes g graph) :
    tables.Aligned r.options r.trees r.texts g graph where
  shaped hs part := h.shaped_step w hs resumes part
  ofTrees hs hstep := h.values_trees w hs resumes hstep
  ofTexts hs hstep := h.values_texts w hs hstep
  ofMarked := by
    intro id s hs input marker shape hstep
    have hout := disables_of_step r.options hstep rfl
    by_cases hkeeps : r.Keeps g s
    · obtain ⟨texts, haligned⟩ := resumes.aligned hkeeps
      rw [h.markerTables_of_keeps w hs hout hkeeps]
      exact (haligned.ofMarked hs input marker shape hstep).settled
    · obtain ⟨u, hu, hutrees⟩ := w.walked hs input (by rw [hstep]; rfl)
      rw [h.markerTables_of_runs w hs hstep hkeeps,
        ← h.values_trees w hu resumes hutrees]
      refine Work.marked_aligned fun t ht => ?_
      have hat : r.previous.find? ⟨g, id, .globalAliases⟩ =
          some ⟨.aliases, t⟩ := Store.at?_eq_some.1 ht
      cases resumes with
      | afresh hnone =>
          rw [hnone _ rfl] at hat
          contradiction
      | «from» haligned _ =>
          have hglobals :=
            (haligned.ofMarked hs input marker shape hstep).globals
          rwa [Store.markerTables, Store.read_of_find? hat] at hglobals

/-! ## Steps that are kept -/

omit [BEq U] in
theorem resident (hshaped : r.previous.Shaped r.options g graph) {id : StepId}
    {s : GraphStep U} (hs : graph.step? id = some s)
    (hout : r.options.disables s.kind = false) (tables : Store (Carrier U)) :
    Step.Resident (r.stepContext g id tables) s.step := by
  intro part
  have hshape := hshaped hs part
  rw [hout] at hshape
  exact hshape

section Kept

variable {tables : Store (Carrier U)} (w : graph.WellFormed)
  (h : r.Solves g graph tables) {texts : List TextFile}
  (haligned : r.previous.Aligned r.options r.trees texts g graph)
  {id : StepId} {s : GraphStep U} (hs : graph.step? id = some s)
  (hkeeps : r.Keeps g s)

include w haligned hs hkeeps

omit [BEq U] in
theorem Keeps.of_reads {x : StepId × Cardinality × DataType}
    (hx : x ∈ s.step.reads) :
    ∃ u, graph.step? x.1 = some u ∧ u.step.promise? = some x.2 ∧
      r.Keeps g u := by
  obtain ⟨u, hu, hpromise⟩ := w.promised hs x hx
  refine ⟨u, hu, hpromise,
    ⟨hkeeps.1.1, w.readsTexts_of_reads hs hkeeps.1.2 hx hu⟩, ?_⟩
  have hshape := haligned.shaped hu .output
  rw [Step.disables_of_promise? hpromise, if_neg (by simp),
    Step.partType_output] at hshape
  rw [Store.contains, w.id_eq hu, Option.isSome_iff_exists]
  obtain ⟨t, ht, -⟩ := Option.map_eq_some_iff.1 hshape
  exact ⟨t, ht⟩

include h

private theorem Solves.evaluate_of_keeps (hnodup : (r.trees.map (·.id)).Nodup)
    (hout : r.options.disables s.kind = false) (part : Part) :
    (s.step.evaluate (r.stepContext g id tables)).tables.lookup part =
      (r.previous.find? ⟨g, id, part⟩).map (·.settled) := by
  have hresident : Step.Resident (r.stepContext g id tables) s.step :=
    resident haligned.shaped hs hout tables
  have hread : ∀ x ∈ s.step.reads, tables.read x.2.2 (.output g x.1) =
      (r.previous.read x.2.2 (.output g x.1)).settled := by
    intro x hx
    obtain ⟨u, hu, hpromise, hkept⟩ := Keeps.of_reads w haligned hs hkeeps hx
    exact h.read_of_keeps w hu (Step.disables_of_promise? hpromise) hkept
      .output x.2.2
  have hcached : ∀ x ∈ s.step.reads,
      ((r.stepContext g id tables).read x.2.2 x.1).isCached = true := by
    intro x hx
    rw [show (r.stepContext g id tables).read x.2.2 x.1 = _ from hread x hx]
    exact Table.isCached_settled _
  cases hstep : s.step with
  | trees =>
      rw [hstep] at hresident
      exact hresident.evaluate_trees (haligned.ofTrees hs hstep) hnodup part
  | texts => exact absurd hstep (w.ne_texts hs hkeeps.1.2)
  | marked input marker shape =>
      rw [hstep] at hresident hcached
      obtain ⟨u, hu, hutrees⟩ := w.walked hs input (by rw [hstep]; rfl)
      have hvalues : ((r.stepContext g id tables).read .tree input).values =
          r.trees := h.values_trees w hu (.from haligned fun _ => rfl) hutrees
      have hmarked := haligned.ofMarked hs input marker shape hstep
      rw [← hvalues] at hmarked hnodup
      exact hresident.evaluate_marked hmarked hnodup
        (hcached _ (List.mem_singleton_self _)) part
  | _ =>
      rw [hstep] at hresident hcached
      exact hresident.evaluate_plain trivial hcached part

end Kept

def full (r : RunContext U) : RunContext U :=
  { r with mode := .full }

omit [BEq U] in
theorem not_keeps_full (s : GraphStep U) : ¬ r.full.Keeps g s :=
  not_keeps_of_full rfl g s

/-- A run that absorbs edits publishes what a full run would publish. -/
theorem Solves.full {tables : Store (Carrier U)} (w : graph.WellFormed)
    (h : r.Solves g graph tables) {texts : List TextFile}
    (haligned : r.previous.Aligned r.options r.trees texts g graph)
    (hnodup : (r.trees.map (·.id)).Nodup) : r.full.Solves g graph tables where
  beyond := h.beyond
  step := by
    intro id s hs part
    rw [h.step hs, published, published, if_neg (not_keeps_full s)]
    cases hout : r.options.disables s.kind with
    | true =>
        rw [show r.full.options.disables s.kind = true from hout]
        rfl
    | false =>
        have hout' : ¬ r.full.options.disables s.kind = true := by
          rw [show r.full.options.disables s.kind = false from hout]
          simp
        refine Eq.trans ?_ (if_neg hout').symm
        rw [if_neg (by simp)]
        split
        · next hkeeps =>
          rw [w.id_eq hs]
          exact (h.evaluate_of_keeps w haligned hs hkeeps hnodup hout part).symm
        · rfl

/-! ## The old inputs in another order -/

section Reordered

variable {tables : Store (Carrier U)} (w : graph.WellFormed)
  (h : r.Solves g graph tables) {trees : List Tree} {texts : List TextFile}
  (haligned : r.previous.Aligned r.options trees texts g graph)
  (hmode : r.mode = .edits → trees = r.trees)
  (hids : (trees.map (·.id)).Nodup) (htrees : r.trees.Perm trees)
  (hpaths : (texts.map (·.path)).Nodup) (htexts : r.texts.Perm texts)

section Inputs

variable {id : StepId} {s : GraphStep U} (hs : graph.step? id = some s)
  (hkeeps : ¬ r.Keeps g s)

include w h haligned hs hkeeps

include hids htrees in
omit hmode hpaths htexts in
private theorem Solves.isCached_trees_of_perm (hstep : s.step = .trees) :
    (tables.read .tree (.output g id)).isCached = true := by
  have hout := disables_of_step r.options hstep rfl
  have hresident : Step.Resident (r.stepContext g id tables) s.step :=
    resident haligned.shaped hs hout tables
  rw [hstep] at hresident
  have hold : (r.stepContext g id tables).old? .tree .output =
      some (r.previous.read .tree (.output g id)) :=
    hresident.old?_eq .output rfl
  have hread : tables.read .tree (.output g id) = (Work.trees r.trees
      (some (r.previous.read .tree (.output g id)))).tables := by
    rw [← hold]
    exact h.read_of_runs w hs hstep hout hkeeps .output .tree rfl
  have hperm : r.trees.Perm
      (r.previous.read .tree (.output g id)).values := by
    rw [haligned.ofTrees hs hstep]
    exact htrees
  rw [hread]
  exact Work.isCached_trees hperm ((htrees.map _).nodup_iff.2 hids)

include hpaths htexts in
omit hmode hids htrees in
private theorem Solves.isCached_texts_of_perm (hstep : s.step = .texts) :
    (tables.read .text (.output g id)).isCached = true := by
  have hout := disables_of_step r.options hstep rfl
  have hresident : Step.Resident (r.stepContext g id tables) s.step :=
    resident haligned.shaped hs hout tables
  rw [hstep] at hresident
  have hold : (r.stepContext g id tables).old? .text .output =
      some (r.previous.read .text (.output g id)) :=
    hresident.old?_eq .output rfl
  have hread : tables.read .text (.output g id) = (Work.texts r.texts
      (some (r.previous.read .text (.output g id)))).tables := by
    rw [← hold]
    exact h.read_of_runs w hs hstep hout hkeeps .output .text rfl
  rw [hread]
  exact Work.isCached_texts (haligned.ofTexts hs hstep) htexts
    ((htexts.map _).nodup_iff.2 hpaths)

end Inputs

include w h haligned hmode hids htrees hpaths htexts

theorem Solves.outputs_of_perm {id : StepId} {s : GraphStep U}
    (hs : graph.step? id = some s)
    (hout : r.options.disables s.kind = false) :
    (tables.read s.step.type (.output g id)).isCached = true ∧
      (s.step ≠ .trees → s.step ≠ .texts →
        tables.find? (.output g id) =
          (r.previous.find? (.output g id)).map (·.settled)) := by
  obtain ⟨i⟩ := id
  induction i using Nat.strongRecOn generalizing s with
  | _ i ih =>
      have ofSettled : tables.find? (.output g ⟨i⟩) =
          (r.previous.find? (.output g ⟨i⟩)).map (·.settled) →
          (tables.read s.step.type (.output g ⟨i⟩)).isCached = true ∧
            (s.step ≠ .trees → s.step ≠ .texts →
              tables.find? (.output g ⟨i⟩) =
                (r.previous.find? (.output g ⟨i⟩)).map (·.settled)) := by
        intro hsettled
        rw [Store.read_settled hsettled]
        exact ⟨Table.isCached_settled _, fun _ _ => hsettled⟩
      by_cases hkeeps : r.Keeps g s
      · exact ofSettled (h.find?_of_keeps w hs hout hkeeps .output)
      · have hresident : Step.Resident (r.stepContext g ⟨i⟩ tables) s.step :=
          resident haligned.shaped hs hout tables
        have hcached : ∀ x ∈ s.step.reads,
            ((r.stepContext g ⟨i⟩ tables).read x.2.2 x.1).isCached = true := by
          intro x hx
          obtain ⟨u, hu, hpromise⟩ := w.promised hs x hx
          have hlt : x.1.index < i := w.earlier_of_reads hs hx
          have hinput := (ih x.1.index hlt
            (Step.disables_of_promise? hpromise) hu).1
          rwa [Step.type_of_promise? hpromise] at hinput
        have hfind := h.find?_of_runs w hs hout hkeeps .output
        cases hstep : s.step with
        | trees =>
            exact ⟨h.isCached_trees_of_perm w haligned hids htrees hs hkeeps
              hstep, fun hne => absurd rfl hne⟩
        | texts =>
            exact ⟨h.isCached_texts_of_perm w haligned hpaths htexts hs hkeeps
              hstep, fun _ hne => absurd rfl hne⟩
        | marked input marker shape =>
            rw [hstep] at hresident hcached hfind ofSettled
            obtain ⟨u, hu, hutrees⟩ := w.walked hs input (by rw [hstep]; rfl)
            have hvalues : ((r.stepContext g ⟨i⟩ tables).read .tree
                input).values = r.trees :=
              h.values_trees w hu (.from haligned hmode) hutrees
            refine ofSettled (hfind.trans ?_)
            exact hresident.evaluate_marked_output
              (haligned.ofMarked hs input marker shape hstep) hids
              (hvalues ▸ htrees) (hcached _ (List.mem_singleton_self _))
        | _ =>
            rw [hstep] at hresident hcached hfind ofSettled
            exact ofSettled
              (hfind.trans (hresident.evaluate_plain trivial hcached .output))

end Reordered

end RunContext

end Regen
