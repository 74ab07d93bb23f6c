import Regen.Proofs.Run.Faithful
import Regen.Proofs.Run.Moved
import Regen.Proofs.Session.Protocol
import Regen.Proofs.Session.Rerun

/-!
# What cannot see the texts

A step that reads no texts, neither itself nor through other steps, publishes
the same tables whatever the texts are.  It does not matter which runs evaluate
the step and which ones keep its tables: all of them publish what full runs over
the same compilations would have published.
-/

namespace Regen

open Syntax

variable {U : Type}

def Store.AlikeApartFromTexts (tables tables' : Store (Carrier U)) (g : GraphId)
    (graph : Graph U) : Prop :=
  ∀ {id s}, graph.step? id = some s → s.readsTexts = false → ∀ part,
    tables.find? ⟨g, id, part⟩ = tables'.find? ⟨g, id, part⟩

namespace RunContext

variable [BEq U] {options : Options} {g : GraphId} {graph : Graph U}

private theorem Solves.alikeApartFromTexts (w : graph.WellFormed)
    {r r' : RunContext U} {tables tables' : Store (Carrier U)}
    (hoptions : r.options = r'.options) (htrees : r.trees = r'.trees)
    (hold : r.previous.AlikeApartFromTexts r'.previous g graph)
    (h : r.full.Solves g graph tables) (h' : r'.full.Solves g graph tables') :
    tables.AlikeApartFromTexts tables' g graph := by
  rintro ⟨i⟩ s hs htexts
  induction i using Nat.strongRecOn generalizing s with
  | _ i ih =>
      intro part
      have inputs : ∀ x ∈ s.step.reads, ∃ u, graph.step? x.1 = some u ∧
          u.readsTexts = false := by
        intro x hx
        obtain ⟨u, hu, -⟩ := w.promised hs x hx
        exact ⟨u, hu, w.readsTexts_of_reads hs htexts hx hu⟩
      have view : SameView (r.full.stepContext g s.id tables)
          (r'.full.stepContext g s.id tables') s.step := by
        rw [w.id_eq hs]
        refine ⟨rfl, hold hs htexts, fun x hx => ?_, fun x hx => ?_,
          fun _ => htrees, fun hstep => absurd hstep (w.ne_texts hs htexts)⟩
        · obtain ⟨u, hu, hinput⟩ := inputs x hx
          exact ih x.1.index (w.earlier_of_reads hs hx) hu hinput .output
        · obtain ⟨u, hu, hinput⟩ := inputs x hx
          exact hold hu hinput .output
      have agree : Agree r.full r'.full g g s tables tables' :=
        ⟨hoptions, iff_of_false (not_keeps_full s) (not_keeps_full s), view⟩
      rw [h.step hs, h'.step hs, agree.published]

/-- The tables of a graph after full runs over these compilations, latest first. -/
inductive Replays (options : Options) (g : GraphId) (graph : Graph U) :
    List Compilation → Store (Carrier U) → Prop
  | start {tables : Store (Carrier U)}
      (h : ∀ key, key.graph = g → tables.find? key = none) :
      Replays options g graph [] tables
  | run {compilations : List Compilation} {compilation : Compilation}
      {r : RunContext U} {tables : Store (Carrier U)}
      (hoptions : r.options = options) (htrees : r.trees = compilation.trees)
      (before : Replays options g graph compilations r.previous)
      (h : r.full.Solves g graph tables) :
      Replays options g graph (compilation :: compilations) tables

private theorem Replays.alikeApartFromTexts (w : graph.WellFormed)
    {compilations : List Compilation} {tables tables' : Store (Carrier U)}
    (h : Replays options g graph compilations tables)
    (h' : Replays options g graph compilations tables') :
    tables.AlikeApartFromTexts tables' g graph := by
  induction h generalizing tables' with
  | start hnone =>
      cases h' with
      | start hnone' =>
          intro id s _ _ part
          rw [hnone _ rfl, hnone' _ rfl]
  | run hoptions htrees _ hsolves ih =>
      cases h' with
      | run hoptions' htrees' before' hsolves' =>
          exact hsolves.alikeApartFromTexts w
            (hoptions.trans hoptions'.symm) (htrees.trans htrees'.symm)
            (ih before') hsolves'

end RunContext

namespace Session

open RunContext

variable [BEq U]

def compilation? (s : Session U) (o : Operation) : Option Compilation :=
  if s.publishes o then (s.job? o).map (·.compilation) else none

def compilations (s : Session U) : List Operation → List Compilation
  | [] => []
  | o :: operations =>
      (s.compilation? o).toList ++ compilations (s.after o) operations

private theorem compilations_append (s : Session U) (before after : List Operation) :
    s.compilations (before ++ after) =
      s.compilations before ++ (s.replay before).compilations after := by
  induction before generalizing s with
  | nil => rfl
  | cons o before ih =>
      rw [List.cons_append, compilations, ih, compilations, List.append_assoc]
      rfl

private theorem length_compilations (s : Session U) (operations : List Operation) :
    (s.compilations operations).length = s.published operations := by
  induction operations generalizing s with
  | nil => rfl
  | cons o operations ih =>
      rw [compilations, List.length_append, ih, published, compilation?]
      refine congrArg (· + _) ?_
      cases hpublishes : s.publishes o with
      | false => rfl
      | true =>
          obtain ⟨job, -, -, hjob, -⟩ := job?_of_publishes hpublishes
          rw [hjob]
          rfl

variable {generators : List (Generator U)} {options : Options}
  (w : ∀ generator ∈ generators, generator.graph.WellFormed)

include w

private theorem Reached.replays_after {s : Session U}
    (h : Reached anyOperation generators options s) {i : Nat}
    {generator : Generator U} (hi : generators[i]? = some generator)
    {history : List Compilation}
    (hreplays : Replays options ⟨i⟩ generator.graph history s.tables)
    (o : Operation)
    (hnodup : ∀ c ∈ (s.compilation? o).toList, (c.trees.map (·.id)).Nodup) :
    Replays options ⟨i⟩ generator.graph
      ((s.compilation? o).toList ++ history) (s.after o).tables := by
  cases hpublishes : s.publishes o with
  | false =>
      have hsame := congrArg Publication.tables (publication_after hpublishes)
      rw [compilation?, hpublishes,
        show (s.after o).tables = s.tables from hsame]
      exact hreplays
  | true =>
      cases s.ended o with
      | failed e hend =>
          rw [publishes_of_error hend] at hpublishes
          contradiction
      | quiet hquiet hend hreports =>
          rw [publishes_of_ok hend, hreports] at hpublishes
          contradiction
      | @published job hjob tables runs hend hreports =>
          have hsolves := (h.solvesAll w hjob hend).of_getElem? hi
          obtain ⟨rfl, rfl, aligned⟩ := h.generators_eq w
          rw [compilation?, hpublishes, hjob] at hnodup ⊢
          have hids := hnodup _ (List.mem_singleton_self _)
          rw [after_of_ok hend]
          have hw := w generator (List.mem_of_getElem? hi)
          exact .run (r := s.context job) rfl rfl hreplays
            (solves_full aligned (follows_of_job? hjob) hi hw hids hsolves)

private theorem Reached.replays {s : Session U}
    (h : Reached anyOperation generators options s) {i : Nat}
    {generator : Generator U} (hi : generators[i]? = some generator)
    {history : List Compilation}
    (hreplays : Replays options ⟨i⟩ generator.graph history s.tables)
    {operations : List Operation}
    (hnodup : ∀ c ∈ s.compilations operations, (c.trees.map (·.id)).Nodup) :
    Replays options ⟨i⟩ generator.graph
      ((s.compilations operations).reverse ++ history)
      (s.replay operations).tables := by
  induction operations generalizing s history with
  | nil => exact hreplays
  | cons o operations ih =>
      rw [compilations, List.forall_mem_append] at hnodup
      have hrest := ih (h.after o)
        (h.replays_after w hi hreplays o hnodup.1) hnodup.2
      have hsingle : (s.compilation? o).toList.reverse =
          (s.compilation? o).toList := by
        cases s.compilation? o <;> rfl
      rw [compilations, List.reverse_append, hsingle, List.append_assoc]
      exact hrest

omit w in
/-- Any two histories that publish runs over the same compilations. -/
theorem texts_unseen (built : ∀ g ∈ generators, g.Built)
    {operations operations' : List Operation}
    (hsame : compilations { generators, options } operations =
      compilations { generators, options } operations')
    (hnodup : ∀ c ∈ compilations { generators, options } operations,
      (c.trees.map (·.id)).Nodup)
    {before before' : List Operation} (hbefore : before <+: operations)
    (hbefore' : before' <+: operations')
    (hruns : published { generators, options } before =
      published { generators, options } before')
    {i : Nat} {generator : Generator U}
    (hi : generators[i]? = some generator) {gs : GraphStep U}
    (hgs : gs ∈ generator.graph.steps) (htexts : gs.readsTexts = false)
    (part : Part) :
    (replay { generators, options } before).tables.find? ⟨⟨i⟩, gs.id, part⟩ =
      (replay { generators, options } before').tables.find?
        ⟨⟨i⟩, gs.id, part⟩ := by
  have w : ∀ generator ∈ generators, generator.graph.WellFormed :=
    fun g hg => (built g hg).wellFormed
  have hw := w generator (List.mem_of_getElem? hi)
  obtain ⟨id, hs⟩ := Graph.step?_of_mem hgs
  rw [hw.id_eq hs]
  obtain ⟨after, rfl⟩ := hbefore
  obtain ⟨after', rfl⟩ := hbefore'
  rw [compilations_append, compilations_append] at hsame
  rw [compilations_append, List.forall_mem_append] at hnodup
  rw [← length_compilations, ← length_compilations] at hruns
  have hearlier := List.append_inj_left hsame hruns
  have hnone : Replays (U := U) options ⟨i⟩ generator.graph [] {} :=
    .start fun _ _ => rfl
  have hreplays := Reached.start.replays w hi hnone hnodup.1
  have hreplays' := Reached.start.replays w hi hnone (hearlier ▸ hnodup.1)
  rw [← hearlier] at hreplays'
  exact hreplays.alikeApartFromTexts hw hreplays' hs htexts part

end Session

/-! ## Listed files, with a note and without -/

namespace Lister

open Session

def plainly : List Operation :=
  [.run files .never, .run files .never]

def withNotes : List Operation :=
  [.addTexts [⟨"y.txt", "z"⟩], .run files .never, .removeTexts ["y.txt"],
    .absorbEdits [.add note] files .never]

theorem notes_unseen :
    compilations blank plainly = [files, files] ∧
      compilations blank withNotes = [files, files] ∧
      ∀ part, (replay blank plainly).tables.find? ⟨⟨0⟩, ⟨1⟩, part⟩ =
        (replay blank withNotes).tables.find? ⟨⟨0⟩, ⟨1⟩, part⟩ := by
  have hplainly : compilations blank plainly = [files, files] := by
    decide +kernel
  have hwithNotes : compilations blank withNotes = [files, files] := by
    decide +kernel
  refine ⟨hplainly, hwithNotes, fun part => ?_⟩
  exact texts_unseen all_built (hplainly.trans hwithNotes.symm)
    (hplainly ▸ by decide) (List.prefix_refl _) (List.prefix_refl _)
    (by decide +kernel) (i := 0) rfl (List.mem_of_getElem? step?_treeStep) rfl
    part

end Lister

end Regen
