import Regen.Proofs.Run.Sized
import Regen.Proofs.Session.Repeated

/-!
# The shape of a published store

After a run, in either mode and whatever the inputs, there is a table for each
part of each step that is not left out, and no other table; and the tables that
go by their inputs are of the same length as these.
-/

namespace Regen

open Syntax

variable {U : Type}

structure Store.Regular (tables : Store (Carrier U)) (trees : List Tree)
    (g : GraphId) (s : GraphStep U) : Prop where
  sizes : ∀ part n,
    s.step.size? (fun input => tables.size (.output g input)) part = some n →
      tables.size? ⟨g, s.id, part⟩ = some n
  byTree : ∀ part ∈ s.step.parts,
    part ∈ [Part.perTree, .aliases, .units, .found] →
      tables.size? ⟨g, s.id, part⟩ = some trees.length
  /-- There is one value to pair the values on the left with. -/
  paired : ∀ left right α β, s.step = .combine left right α β →
    ∃ (t : Table (Carrier U β)) (b : Carrier U β),
      tables.find? (.output g right) = some ⟨β, t⟩ ∧ t.values = [b]

private theorem Step.mem_parts_of_size? {s : Step U} {sizeOf : StepId → Nat}
    {part : Part} {n : Nat} (h : s.size? sizeOf part = some n) :
    part ∈ s.parts := by
  cases s <;> cases part <;> simp_all [size?, parts]

private theorem Step.size?_walked {s : Step U} {part : Part} (hpart : part ∈ s.parts)
    (htree : part ∈ [Part.perTree, .aliases, .units, .found])
    (sizeOf : StepId → Nat) :
    ∃ input, s.walked? = some input ∧
      s.size? sizeOf part = some (sizeOf input) := by
  cases s <;> cases part <;> simp_all [size?, parts, walked?]

namespace RunContext

variable [BEq U] {r : RunContext U} {g : GraphId} {graph : Graph U}
  {tables : Store (Carrier U)} (w : graph.WellFormed)
  (h : r.Solves g graph tables) (resumes : r.Resumes g graph)
  {id : StepId} {s : GraphStep U} (hs : graph.step? id = some s)
  (hout : r.options.disables s.kind = false)

include w h resumes hs hout

private theorem Solves.exists_of_mem_parts {part : Part} (hpart : part ∈ s.step.parts) :
    ∃ type t, s.step.partType part = some type ∧
      tables.find? ⟨g, id, part⟩ = some ⟨type, t⟩ := by
  obtain ⟨type, htype⟩ :=
    Option.isSome_iff_exists.1 ((s.step.partType_isSome_iff part).2 hpart)
  have hshape := h.shaped_step w hs resumes part
  rw [hout, if_neg (by simp), htype] at hshape
  obtain ⟨⟨type', t⟩, ht, rfl⟩ := Option.map_eq_some_iff.1 hshape
  exact ⟨type', t, htype, ht⟩

private theorem Solves.regular (counted : tables.Counted g graph) :
    tables.Regular r.trees g s := by
  have sizes : ∀ part n,
      s.step.size? (fun input => tables.size (.output g input)) part = some n →
        tables.size? ⟨g, id, part⟩ = some n := by
    intro part n hn
    obtain ⟨type, t, -, ht⟩ := h.exists_of_mem_parts w resumes hs hout
      (Step.mem_parts_of_size? hn)
    rw [Store.size?, ht]
    exact congrArg some (counted hs part n hn _ ht)
  rw [← w.id_eq hs] at sizes
  refine ⟨sizes, fun part hpart htree => ?_, fun left right α β hstep => ?_⟩
  · obtain ⟨input, hinput, hsize⟩ := Step.size?_walked hpart htree
      fun input => tables.size (.output g input)
    obtain ⟨u, hu, hutrees⟩ := w.walked hs input hinput
    have htype : ∀ t, tables.find? (.output g input) = some t →
        t.type = .tree := fun t ht => by
      have htype := Store.Typed.output
        (Store.Shaped.typed (h.aligned w resumes).shaped) hu t ht
      rwa [hutrees] at htype
    rw [sizes part _ hsize, ← Store.length_values_read htype,
      h.values_trees w hu resumes hutrees]
  · obtain ⟨u, hu, hpromise⟩ := w.promised hs (right, .one, β)
      (by rw [hstep]; simp [Step.reads])
    have hout' := Step.disables_of_promise? (o := r.options) hpromise
    have hpart : Part.output ∈ u.step.parts :=
      (u.step.partType_isSome_iff .output).1 (by simp)
    obtain ⟨type, t, htype, ht⟩ :=
      h.exists_of_mem_parts w resumes hu hout' hpart
    rw [Step.partType_output, Step.type_of_promise? hpromise] at htype
    obtain rfl : β = type := Option.some.inj htype
    have hone := counted hu .output 1 (Step.size?_of_one hpromise _) _ ht
    obtain ⟨b, hb⟩ := List.length_eq_one_iff.1 hone
    exact ⟨t, b, ht, hb⟩

omit w h resumes hs hout

private theorem SolvesAll.contains_iff {generators : List (Generator U)}
    (w : ∀ generator ∈ generators, generator.graph.WellFormed)
    (h : r.SolvesAll 0 generators tables)
    (resumes : ∀ i generator, generators[i]? = some generator →
      r.Resumes ⟨i⟩ generator.graph) (key : TableKey) :
    tables.contains key = true ↔
      ∃ generator gs, generators[key.graph.index]? = some generator ∧
        gs ∈ generator.graph.steps ∧ gs.id = key.step ∧
        r.options.disables gs.kind = false ∧ key.part ∈ gs.step.parts := by
  obtain ⟨⟨i⟩, id, part⟩ := key
  rw [Store.contains, Option.isSome_iff_exists]
  constructor
  · rintro ⟨t, ht⟩
    cases hi : generators[i]? with
    | none =>
        have hlength := List.getElem?_eq_none_iff.1 hi
        rw [h.beyond ⟨⟨i⟩, id, part⟩ (by rwa [Nat.zero_add])] at ht
        contradiction
    | some generator =>
        have hw := w generator (List.mem_of_getElem? hi)
        have hsolves := h.of_getElem? hi
        cases hs : generator.graph.step? id with
        | none =>
            rw [hsolves.beyond _ rfl hs] at ht
            contradiction
        | some gs =>
            have hshape := hsolves.shaped_step hw hs (resumes i generator hi) part
            rw [ht] at hshape
            split at hshape
            · contradiction
            · next hout =>
              refine ⟨generator, gs, rfl, List.mem_of_getElem? hs, hw.id_eq hs,
                by simpa using hout, (gs.step.partType_isSome_iff part).1 ?_⟩
              rw [← hshape]
              rfl
  · rintro ⟨generator, gs, hi, hgs, hid, hout, hpart⟩
    have hw := w generator (List.mem_of_getElem? hi)
    obtain ⟨id', hs⟩ := Graph.step?_of_mem hgs
    obtain rfl : id' = id := (hw.id_eq hs).symm.trans hid
    obtain ⟨type, t, -, ht⟩ := (h.of_getElem? hi).exists_of_mem_parts hw
      (resumes i generator hi) hs hout hpart
    exact ⟨_, ht⟩

end RunContext

namespace Session

variable [BEq U] {allowed : Session U → Operation → Prop}
  {generators : List (Generator U)} {options : Options} {s s' : Session U}

theorem Reached.counted
    (w : ∀ generator ∈ generators, generator.graph.WellFormed)
    (h : Reached allowed generators options s) {i : Nat}
    {generator : Generator U} (hi : generators[i]? = some generator) :
    s.tables.Counted ⟨i⟩ generator.graph := by
  induction h with
  | start => exact fun _ _ _ _ _ ht => nomatch ht
  | @step s s' o hs _ hok ih =>
      obtain ⟨rfl, rfl, aligned⟩ := hs.generators_eq w
      rcases perform_cases w aligned hok with
        ⟨-, hsame⟩ | ⟨job, final, runs, hjob, hsolves, -, rfl⟩
      · rw [show s'.tables = s.tables from congrArg Publication.tables hsame]
        exact ih
      · exact (hsolves.of_getElem? hi).counted
          (w generator (List.mem_of_getElem? hi))
          (resumes aligned (follows_of_job? hjob) hi) ih

/-- The tables that any run leaves, whatever has come before it. -/
theorem perform_regular (built : ∀ g ∈ generators, g.Built)
    (h : Reached anyOperation generators options s) {o : Operation} {job : Job}
    (hjob : s.job? o = some job) (hok : (s.perform o).outcome = .ok s') :
    (∀ key, s'.tables.contains key = true ↔
      ∃ generator gs, generators[key.graph.index]? = some generator ∧
        gs ∈ generator.graph.steps ∧ gs.id = key.step ∧
        options.disables gs.kind = false ∧ key.part ∈ gs.step.parts) ∧
      ∀ i generator, generators[i]? = some generator →
        ∀ gs ∈ generator.graph.steps, options.disables gs.kind = false →
          s'.tables.Regular job.compilation.trees ⟨i⟩ gs := by
  have w : ∀ generator ∈ generators, generator.graph.WellFormed :=
    fun g hg => (built g hg).wellFormed
  have hsolves := h.solvesAll w hjob hok
  have counted : ∀ i generator, generators[i]? = some generator →
      s'.tables.Counted ⟨i⟩ generator.graph :=
    fun _ _ hi => (Reached.step h trivial hok).counted w hi
  obtain ⟨rfl, rfl, aligned⟩ := h.generators_eq w
  have resumes : ∀ i generator, s.generators[i]? = some generator →
      (s.context job).Resumes ⟨i⟩ generator.graph :=
    fun _ _ hi => resumes aligned (follows_of_job? hjob) hi
  refine ⟨fun key => hsolves.contains_iff w resumes key,
    fun i generator hi gs hgs hout => ?_⟩
  obtain ⟨id, hs⟩ := Graph.step?_of_mem hgs
  exact (hsolves.of_getElem? hi).regular (w generator (List.mem_of_getElem? hi))
    (resumes i generator hi) hs hout (counted i generator hi)

end Session

namespace Census

open Session Syntax

def sourcesOnly : Session Unit where
  generators := [generator]
  options := { disabledOutputs := [.implementation] }

theorem middle_regular :
    ∃ s s', (sourcesOnly.perform (.run lost .never)).outcome = .ok s ∧
      (s.perform (.run middle .never)).outcome = .ok s' ∧
      s'.tables.size? ⟨⟨0⟩, ⟨1⟩, .perTree⟩ = some 3 ∧
      s'.tables.contains (.output ⟨0⟩ ⟨5⟩) = false ∧
      ∀ gs ∈ generator.graph.steps, gs.id ≠ ⟨5⟩ →
        s'.tables.Regular middle.trees ⟨0⟩ gs := by
  have hok := ok_of_isSome sourcesOnly
    (show (sourcesOnly.perform (.run lost .never)).outcome.toOption.isSome =
      true by decide +kernel)
  have hok' := ok_of_isSome sourcesOnly
    (show (((sourcesOnly.perform (.run lost .never)).outcome.toOption.getD
      sourcesOnly).perform (.run middle .never)).outcome.toOption.isSome = true
        by decide +kernel)
  have hout : ∀ gs ∈ generator.graph.steps,
      sourcesOnly.options.disables gs.kind = decide (gs.id = ⟨5⟩) := by
    decide
  obtain ⟨hkeys, hregular⟩ :=
    perform_regular built (.step .start trivial hok) rfl hok'
  refine ⟨_, _, hok, hok', by decide +kernel, ?_, fun gs hgs hid =>
    hregular 0 generator rfl gs hgs ((hout gs hgs).trans (by simpa using hid))⟩
  rw [← Bool.not_eq_true, hkeys]
  rintro ⟨_, gs, ⟨⟩, hgs, hid, henabled, -⟩
  exact of_decide_eq_false ((hout gs hgs).symm.trans henabled) hid

end Census

end Regen
