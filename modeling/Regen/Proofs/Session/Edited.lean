import Regen.Proofs.Run.Edited
import Regen.Proofs.Session.Rerun

/-!
# One edit at a time

After a run over distinct files, a run over the same files with another syntax
in one of them does no more than it has to: filters walk that one file, and
marker selectors scan it again together with the files that the change of
aliases reaches.  Identifiers that were shared in an earlier run may still make
a later one scan more.
-/

namespace Regen

open RunContext Syntax

variable {U : Type}

namespace RunContext

variable [BEq U] {r : RunContext U} {g : GraphId} {graph : Graph U}
  {tables : Store (Carrier U)}

theorem Solves.readable (w : graph.WellFormed)
    (typed : r.previous.Typed g graph) (h : r.Solves g graph tables)
    {id : StepId} {s : GraphStep U} (hs : graph.step? id = some s) :
    Step.Readable (r.stepContext g id tables) s.step where
  own part t ht := typed hs part t ht
  inputs := w.typed_input hs fun hu _ => h.typed w typed hu
  oldInputs := w.typed_input hs fun hu _ => typed hu

omit [BEq U] in
private theorem isInfix_flatMap {α β : Type} {f : α → List β} {as : List α} {a : α}
    (h : a ∈ as) : f a <:+: as.flatMap f := by
  obtain ⟨before, after, rfl⟩ := List.append_of_mem h
  rw [List.flatMap_append, List.flatMap_cons]
  exact ⟨_, _, List.append_assoc _ _ _⟩

end RunContext

namespace Session

variable [BEq U] {generators : List (Generator U)} {options : Options}
  {s s' : Session U}

def distinctly (s : Session U) (o : Operation) : Prop :=
  ∀ job, s.job? o = some job → (job.compilation.trees.map (·.id)).Nodup

theorem Reached.recalls
    (w : ∀ generator ∈ generators, generator.graph.WellFormed)
    (h : Reached distinctly generators options s) {i : Nat}
    {generator : Generator U} (hi : generators[i]? = some generator) :
    s.tables.Recalls ⟨i⟩ generator.graph := by
  induction h with
  | start => exact Store.recalls_of_none (fun _ _ => rfl) _
  | @step s s' o hs hdistinct hok ih =>
      obtain ⟨rfl, rfl, aligned⟩ := hs.generators_eq w
      rcases perform_cases w aligned hok with
        ⟨-, hsame⟩ | ⟨job, final, runs, hjob, hsolves, -, rfl⟩
      · rw [show s'.tables = s.tables from congrArg Publication.tables hsame]
        exact ih
      · have hw := w generator (List.mem_of_getElem? hi)
        have hids := hdistinct job hjob
        have hfull := solves_full aligned (follows_of_job? hjob) hi hw hids
          (hsolves.of_getElem? hi)
        exact hfull.recalls hw ih hids

private theorem Reached.nodup_last
    (w : ∀ generator ∈ generators, generator.graph.WellFormed)
    (h : Reached distinctly generators options s) {last : LastRun}
    (hlast : s.lastRun = some last) :
    (last.compilation.trees.map (·.id)).Nodup := by
  induction h with
  | start => contradiction
  | @step s s' o hs hdistinct hok ih =>
      obtain ⟨rfl, rfl, aligned⟩ := hs.generators_eq w
      rcases perform_cases w aligned hok with
        ⟨-, hsame⟩ | ⟨job, final, runs, hjob, -, -, rfl⟩
      · exact ih ((congrArg Publication.lastRun hsame).symm.trans hlast)
      · obtain rfl := Option.some.inj hlast
        exact hdistinct job hjob

private theorem run_ok (w : ∀ generator ∈ s.generators, generator.graph.WellFormed)
    (aligned : s.publication.Aligned) {compilation : Compilation}
    {cancel : Cancellation} {job : Job}
    (hjob : s.job? (.run compilation cancel) = some job)
    (hok : (s.run compilation cancel).outcome = .ok s') :
    (s.context job).actionsAll s'.tables 0 s.generators <:+:
        (s.run compilation cancel).journal ∧
      ∃ last, s'.lastRun = some last ∧
        last.result.generators =
          (s.context job).runsAll s'.tables 0 s.generators := by
  have follows := follows_of_job? hjob
  obtain rfl := Option.some.inj hjob
  have hrun : s.run compilation cancel = s.runTraced compilation :=
    under_of_ok hok
  rw [hrun, outcome_runTraced] at hok
  obtain ⟨final, -, sources, -, -, rfl, hjournal⟩ :=
    executeJob_publishes w aligned follows hok
  refine ⟨?_, _, rfl, rfl⟩
  have htraced : (s.runTraced compilation).journal =
      reportSkipped (TextEdit.applyFitting s.texts s.pending).2 ++
        (s.executeJob ⟨.full, compilation,
          (TextEdit.applyFitting s.texts s.pending).1⟩).journal := rfl
  rw [hrun, htraced, hjournal]
  exact ⟨_, _, List.append_assoc _ _ _⟩

def statesOf (s : Session U) (i : Nat) (gs : GraphStep U) : List Provenance :=
  (s.tables.states? (.output ⟨i⟩ gs.id)).getD []

/--
In the run of `job` that has led to `s'`, the step was run and gave `x`: the run
has done what `x` says and reported what `x` counts.
-/
structure Evaluated (s : Session U) (job : Job) (journal : Journal)
    (s' : Session U) (i : Nat) (generator : Generator U) (gs : GraphStep U)
    (x : StepResult U) : Prop where
  result : gs.step.run ((s.context job).stepContext ⟨i⟩ gs.id s'.tables) =
    .ok x
  told : x.journal ++ [.report (.evaluatedStep generator.name gs.id
    gs.displayName (s'.statesOf i gs).length x.executions)] <:+: journal
  tracked : ∃ last run, s'.lastRun = some last ∧
    last.result.generators[i]? = some run ∧
      (s.context job).track gs x.subSteps (s'.statesOf i gs) x.executions <:+:
        run.steps

theorem Reached.evaluated {allowed : Session U → Operation → Prop}
    (w : ∀ generator ∈ generators, generator.graph.WellFormed)
    (h : Reached allowed generators options s) {compilation : Compilation}
    {cancel : Cancellation} {job : Job}
    (hjob : s.job? (.run compilation cancel) = some job)
    (hok : (s.run compilation cancel).outcome = .ok s') {i : Nat}
    {generator : Generator U} (hi : generators[i]? = some generator)
    {gs : GraphStep U} (hgs : gs ∈ generator.graph.steps)
    (hout : options.disables gs.kind = false) :
    s.Evaluated job (s.run compilation cancel).journal s' i generator gs
      (gs.step.evaluate ((s.context job).stepContext ⟨i⟩ gs.id s'.tables)) := by
  have hsolves := (h.solvesAll w hjob hok).of_getElem? hi
  have hw := w generator (List.mem_of_getElem? hi)
  obtain ⟨rfl, rfl, aligned⟩ := h.generators_eq w
  obtain ⟨hjournal, last, hlast, hruns⟩ := run_ok w aligned hjob hok
  have typed : s.tables.Typed ⟨i⟩ generator.graph :=
    (resumes aligned (follows_of_job? hjob) hi).typed
  obtain ⟨id, hs⟩ := Graph.step?_of_mem hgs
  obtain rfl := hw.id_eq hs
  have hfull : job.mode = .full := by
    obtain rfl := Option.some.inj hjob
    rfl
  have hkeeps := not_keeps_of_full (r := s.context job) hfull ⟨i⟩ gs
  have hstates : (s.context job).publishedStates ⟨i⟩ gs s'.tables =
      s'.statesOf i gs := by
    rw [publishedStates, ← hsolves.step hs]
    rfl
  constructor
  case result =>
    exact Step.run_eq (hsolves.readable hw typed hs)
  case told =>
    have hstep := isInfix_flatMap
      (f := ((s.context job).actions ⟨i⟩ generator.name · s'.tables)) hgs
    have hall := (s.context job).isInfix_actionsAll s'.tables 0 hi
    rw [Nat.zero_add] at hall
    rw [actions_of_runs hout hkeeps, hstates] at hstep
    exact (List.suffix_cons _ _).isInfix.trans
      (hstep.trans (hall.trans hjournal))
  case tracked =>
    have hstep := isInfix_flatMap
      (f := ((s.context job).reported ⟨i⟩ · s'.tables)) hgs
    refine ⟨last, _, hlast, by rw [hruns, getElem?_runsAll, hi]; rfl, ?_⟩
    rw [reported_of_runs hout hkeeps, hstates] at hstep
    rw [Nat.zero_add]
    exact hstep

/--
One edited file costs one walk, as long as every run was over distinct files.
After an edit each filter walks one tree, and each marker selector takes the
aliases of one file and scans those in `rewalked`.
-/
theorem run_edited (built : ∀ g ∈ generators, g.Built)
    (h : Reached distinctly generators options s) {last : LastRun}
    (hlast : s.lastRun = some last) {t : Tree}
    (ht : t ∈ last.compilation.trees) {root : Node} (hroot : root ≠ t.root)
    {compilation : Compilation}
    (hedit : last.compilation.insert (t.setRoot root) = compilation)
    {cancel : Cancellation} {job : Job}
    (hjob : s.job? (.run compilation cancel) = some job)
    (hok : (s.run compilation cancel).outcome = .ok s') {i : Nat}
    {generator : Generator U} (hi : generators[i]? = some generator)
    {gs : GraphStep U} (hgs : gs ∈ generator.graph.steps) :
    (∀ input β accepts map, gs.step = .filter input β accepts map →
      ∃ x, s.Evaluated job (s.run compilation cancel).journal s' i generator
        gs x ∧ x.executions = 1) ∧
    (∀ input marker shape, gs.step = .marked input marker shape →
      ∃ x, s.Evaluated job (s.run compilation cancel).journal s' i generator
        gs x ∧ (s.tables.keptMarkers ⟨⟨i⟩, gs.id⟩).Rescans marker shape
          last.compilation.trees t root compilation.trees x) := by
  have w : ∀ generator ∈ generators, generator.graph.WellFormed :=
    fun g hg => (built g hg).wellFormed
  have hw := w generator (List.mem_of_getElem? hi)
  obtain ⟨id, hs⟩ := Graph.step?_of_mem hgs
  obtain rfl := hw.id_eq hs
  have evaluated := fun hout => h.evaluated w hjob hok hi hgs hout
  have hsolves := (h.solvesAll w hjob hok).of_getElem? hi
  have hrecalls := h.recalls w hi
  have edited : Edited last.compilation.trees t root compilation.trees :=
    hedit ▸ .of_insert (h.nodup_last w hlast) ht hroot
  obtain ⟨rfl, rfl, aligned⟩ := h.generators_eq w
  obtain rfl := Option.some.inj hjob
  have hfull := solves_full aligned (follows_of_job? hjob) hi hw
    edited.ids_after hsolves
  have htrees : ∀ {id u}, generator.graph.step? id = some u →
      u.step = .trees →
        s.tables.reading ⟨i⟩ .tree id = last.compilation.trees :=
    fun hu hutrees => (aligned.tables last hlast i generator hi).ofTrees hu
      hutrees
  refine ⟨fun input β accepts map hstep => ?_,
    fun input marker shape hstep => ?_⟩
  · refine ⟨_, evaluated (disables_of_step _ hstep rfl), ?_⟩
    exact hfull.executions_filter_edited hw hrecalls edited htrees hs hstep
  · refine ⟨_, evaluated (disables_of_step _ hstep rfl), ?_⟩
    exact hfull.rescans_edited hw hrecalls edited htrees hs hstep

end Session

namespace Census

open Session

def shorthand : Using :=
  { isGlobal := true, aliasName := some "X", name := "Counted" }

def aliasing (members : List Node) : Tree :=
  ⟨⟨1⟩, "a.cs", .unit [shorthand] members⟩

def viaAlias : Tree :=
  ⟨⟨2⟩, "b.cs", .unit [] [(Node.declaration .classType "B").marked ["X"]]⟩

def direct : Tree :=
  ⟨⟨3⟩, "c.cs", .unit [] [(Node.declaration .classType "C").marked
    ["Counted"]]⟩

def aliased : Compilation :=
  ⟨[aliasing [], viaAlias, direct]⟩

def unaliased : Compilation :=
  aliased.insert ((aliasing []).setRoot (.unit [] []))

theorem unaliased_rescans :
    ∃ s s', (blank.perform (.run aliased .never)).outcome = .ok s ∧
      (s.run unaliased).outcome = .ok s' ∧
      (∃ gs ∈ generator.graph.steps, gs.name = some "classes" ∧
        ∃ x, s.Evaluated ⟨.full, unaliased, []⟩ (s.run unaliased).journal s' 0
          generator gs x ∧ x.executions = 1) ∧
      ∃ gs ∈ generator.graph.steps, gs.name = some "counted" ∧
        ∃ x, s.Evaluated ⟨.full, unaliased, []⟩ (s.run unaliased).journal s' 0
          generator gs x ∧ x.journal.walked = [⟨1⟩, ⟨2⟩] := by
  have hok := ok_of_isSome blank
    (show (blank.perform (.run aliased .never)).outcome.toOption.isSome = true
      by decide +kernel)
  generalize hs : (blank.perform (.run aliased .never)).outcome.toOption.getD
    blank = s at hok
  have hok' := ok_of_isSome blank
    (show (s.run unaliased).outcome.toOption.isSome = true by
      rw [← hs]
      decide +kernel)
  have hreached : Reached distinctly [generator] { trackSteps := true } s := by
    refine .step (o := .run aliased .never) .start (fun job hjob => ?_) hok
    obtain rfl := Option.some.inj hjob
    decide
  obtain ⟨last, hlast, hcompilation, hlasttexts, htexts, hpending⟩ :=
    exists_last rfl hok
  have hjob : s.job? (.run unaliased .never) =
      some ⟨.full, unaliased, []⟩ := by
    rw [job?, hpending, htexts, hlasttexts]
    rfl
  have ht : aliasing [] ∈ last.compilation.trees := by
    rw [hcompilation]
    exact List.mem_cons_self
  have hedit : last.compilation.insert ((aliasing []).setRoot (.unit [] [])) =
      unaliased := by
    rw [hcompilation]
    rfl
  have edited := fun gs (hgs : gs ∈ generator.graph.steps) =>
    run_edited built hreached hlast ht
      (show Node.unit [] [] ≠ (aliasing []).root by decide) hedit hjob hok'
      (i := 0) rfl hgs
  have hclasses : generator.graph.steps[1]? = some _ := rfl
  have hcounted : generator.graph.steps[2]? = some _ := rfl
  obtain ⟨x, hx, hone⟩ :=
    (edited _ (List.mem_of_getElem? hclasses)).1 _ _ _ _ rfl
  obtain ⟨y, hy, rescans⟩ :=
    (edited _ (List.mem_of_getElem? hcounted)).2 _ _ _ rfl
  refine ⟨s, _, hok, hok', ⟨_, List.mem_of_getElem? hclasses, rfl, x, hx, hone⟩,
    _, List.mem_of_getElem? hcounted, rfl, y, hy, rescans.walked.trans ?_⟩
  rw [hcompilation, ← hs]
  decide +kernel

/-- A file of the same identifier comes after the one that declares the alias. -/
def shadowed : Compilation :=
  ⟨[aliasing [], ⟨⟨1⟩, "d.cs", .unit [] []⟩, viaAlias]⟩

def parted : Compilation :=
  ⟨[aliasing [], viaAlias]⟩

def grown : Compilation :=
  parted.insert ((aliasing []).setRoot
    (aliasing [.declaration .classType "A"]).root)

/--
A run over the repeated identifier makes the next one lose the alias.  So the
edit, which declares the alias once more, has a second file scanned again.
-/
theorem grown_rescans_second :
    (parted.trees.map (·.id)).Nodup ∧
      AliasSet.ofRoot (aliasing [.declaration .classType "A"]).root =
        AliasSet.ofRoot (aliasing []).root ∧
      ∃ s s' s'', (blank.run shadowed).outcome = .ok s ∧
        (s.run parted).outcome = .ok s' ∧
        (s'.run grown).outcome = .ok s'' ∧
        (s'.run grown).journal.walked = [⟨1⟩, ⟨2⟩] := by
  have hok := ok_of_isSome blank
    (show (blank.run shadowed).outcome.toOption.isSome = true
      by decide +kernel)
  have hok' := ok_of_isSome blank
    (show (((blank.run shadowed).outcome.toOption.getD blank).run
      parted).outcome.toOption.isSome = true by decide +kernel)
  have hok'' := ok_of_isSome blank
    (show (((((blank.run shadowed).outcome.toOption.getD blank).run
      parted).outcome.toOption.getD blank).run
        grown).outcome.toOption.isSome = true by decide +kernel)
  exact ⟨by decide, rfl, _, _, _, hok, hok', hok'', by decide +kernel⟩

end Census

end Regen
