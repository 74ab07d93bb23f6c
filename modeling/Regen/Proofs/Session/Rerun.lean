import Regen.Proofs.Run.Settled
import Regen.Proofs.Session.Reorder
import Regen.Proofs.Session.Tables

/-!
# Running twice

A run over the inputs of the last run, with distinct files and no edits queued,
only marks the published tables as cached: it succeeds with the sources that
were shown last, calls no function and walks no file.
-/

namespace Regen

open RunContext

def LastRun.again (last : LastRun) : Job :=
  ⟨.full, last.compilation, last.texts⟩

variable {U : Type} [BEq U] {generators : List (Generator U)}
  {options : Options} {s s' : Session U}

omit [BEq U] in
theorem Graph.step?_of_mem {graph : Graph U} {gs : GraphStep U}
    (h : gs ∈ graph.steps) : ∃ id, graph.step? id = some gs := by
  obtain ⟨i, hi⟩ := List.mem_iff_getElem?.1 h
  exact ⟨⟨i⟩, hi⟩

namespace Session

/-- All that a run has done is to mark as cached what was published before. -/
structure Settles (s : Session U) (journal : Journal) (s' : Session U) :
    Prop where
  shown : s'.shown = s.shown
  tables : ∀ key, s'.tables.find? key =
    (s.tables.find? key).map (·.settled)
  runs : ∀ last, s'.lastRun = some last → ∀ run ∈ last.result.generators,
    ∀ x ∈ run.steps, x.Idle
  actions : ∀ a ∈ journal, a.Idle
  evaluated : ∀ g ∈ s.generators, ∀ gs ∈ g.graph.steps,
    s.options.disables gs.kind = false → ∃ entries,
      .report (.evaluatedStep g.name gs.id gs.displayName entries 0) ∈ journal

theorem run_again {last : LastRun} (htexts : s.texts = last.texts)
    (hpending : s.pending = []) :
    s.run last.compilation = s.executeJob last.again := by
  rw [run, Traced.under_never, runTraced, hpending, htexts]
  rfl

section

variable {last : LastRun}
  (w : ∀ generator ∈ s.generators, generator.graph.WellFormed)
  (aligned : s.publication.Aligned) (hlast : s.lastRun = some last)
  (hids : (last.compilation.trees.map (·.id)).Nodup)
  (hpaths : (last.texts.map (·.path)).Nodup)

include w aligned hlast hids hpaths

section

variable {final : Store (Carrier U)}
  (hsolves : (s.context last.again).SolvesAll 0 s.generators final)

include hsolves

private theorem find?_again {before : RunContext U}
    (hbefore : before.SolvesAll 0 s.generators s.tables) (key : TableKey) :
    final.find? key = (s.tables.find? key).map (·.settled) := by
  obtain ⟨⟨i⟩, id, part⟩ := key
  cases hi : s.generators[i]? with
  | none =>
      have hle : 0 + s.generators.length ≤ i := by
        rw [Nat.zero_add]
        exact List.getElem?_eq_none_iff.1 hi
      rw [hsolves.beyond _ hle, hbefore.beyond _ hle, Option.map_none]
  | some generator =>
      have hsolved := hsolves.of_getElem? hi
      cases hs : generator.graph.step? id with
      | none =>
          rw [hsolved.beyond _ rfl hs,
            (hbefore.of_getElem? hi).beyond _ rfl hs, Option.map_none]
      | some gs =>
          exact hsolved.find?_settled (w generator (List.mem_of_getElem? hi))
            (aligned.tables last hlast i generator hi) hids hpaths hs part

private theorem runsAll_idle : ∀ run ∈ (s.context last.again).runsAll final 0
    s.generators, ∀ x ∈ run.steps, x.Idle := by
  intro run hrun x hx
  obtain ⟨i, generator, hi, hsteps⟩ := steps_of_mem_runsAll hrun
  rw [hsteps, Nat.zero_add] at hx
  obtain ⟨gs, hgs, hx⟩ := List.mem_flatMap.1 hx
  obtain ⟨id, hs⟩ := Graph.step?_of_mem hgs
  exact (hsolves.of_getElem? hi).reported_idle
    (w generator (List.mem_of_getElem? hi)) (aligned.tables last hlast i _ hi)
    hids hpaths hs x hx

private theorem actionsAll_idle : ∀ a ∈ (s.context last.again).actionsAll final 0
    s.generators, a.Idle := by
  intro a ha
  obtain ⟨i, generator, hi, gs, hgs, ha⟩ := mem_actionsAll.1 ha
  rw [Nat.zero_add] at ha
  obtain ⟨id, hs⟩ := Graph.step?_of_mem hgs
  exact (hsolves.of_getElem? hi).actions_idle
    (w generator (List.mem_of_getElem? hi)) (aligned.tables last hlast i _ hi)
    hids hpaths hs _ a ha

private theorem evaluatedStep_again {generator : Generator U}
    (hgenerator : generator ∈ s.generators) {gs : GraphStep U}
    (hgs : gs ∈ generator.graph.steps)
    (hout : s.options.disables gs.kind = false) :
    ∃ entries, .report (.evaluatedStep generator.name gs.id gs.displayName
      entries 0) ∈ (s.context last.again).actionsAll final 0 s.generators := by
  obtain ⟨i, hi⟩ := List.mem_iff_getElem?.1 hgenerator
  obtain ⟨id, hs⟩ := Graph.step?_of_mem hgs
  have hw := w generator hgenerator
  have hkeeps := not_keeps_of_full (r := s.context last.again) rfl ⟨i⟩ gs
  have hidle := ((hsolves.of_getElem? hi).evaluate_settled hw
    (aligned.tables last hlast i _ hi) hids hpaths hs hout).2
  obtain rfl := hw.id_eq hs
  have hmem := @evaluatedStep_mem_actions U _ (s.context last.again) ⟨i⟩
    generator.name gs final hout hkeeps
  rw [hidle.executions] at hmem
  generalize List.length _ = entries at hmem
  refine ⟨entries, mem_actionsAll.2 ⟨i, generator, hi, gs, hgs, ?_⟩⟩
  rw [Nat.zero_add]
  exact hmem

end

private theorem run_again_settles {before : RunContext U}
    (hbefore : before.SolvesAll 0 s.generators s.tables)
    (htexts : s.texts = last.texts) (hpending : s.pending = []) :
    ∃ s', (s.run last.compilation).outcome = .ok s' ∧
      s.Settles (s.run last.compilation).journal s' := by
  obtain ⟨final, hsolves, houtcome, hjournal⟩ :=
    @executeJob_eq U _ s last.again w aligned nofun
  have hgather := gatherAll_of_perm w aligned hlast hids hpaths (fun _ => rfl)
    (.refl _) (.refl _) hsolves
  have hverdict := verdict_eq aligned hlast
  rw [hgather, hverdict] at houtcome hjournal
  obtain ⟨sources, hjournal⟩ := hjournal _ rfl
  rw [run_again htexts hpending, hjournal]
  refine ⟨_, houtcome, ?_⟩
  constructor
  case shown =>
    rw [eq_of_verdict hverdict, ← hgather]
    exact map_shown_runsAll _ _ _ _
  case tables =>
    exact find?_again w aligned hlast hids hpaths hsolves hbefore
  case runs =>
    rintro last' ⟨⟩
    exact runsAll_idle w aligned hlast hids hpaths hsolves
  case actions =>
    intro a ha
    rcases List.mem_append.1 ha with ha | ha
    · exact actionsAll_idle w aligned hlast hids hpaths hsolves a ha
    · obtain rfl := List.mem_singleton.1 ha
      trivial
  case evaluated =>
    intro g hg gs hgs hout
    obtain ⟨entries, hmem⟩ :=
      evaluatedStep_again w aligned hlast hids hpaths hsolves hg hgs hout
    exact ⟨entries, List.mem_append_left _ hmem⟩

end

theorem exists_last {o : Operation} {job : Job} (hjob : s.job? o = some job)
    (hok : (s.perform o).outcome = .ok s') :
    ∃ last, s'.lastRun = some last ∧ last.compilation = job.compilation ∧
      last.texts = job.texts ∧ s'.texts = last.texts ∧ s'.pending = [] := by
  obtain ⟨tables, runs, rfl⟩ := exists_publish hjob hok
  exact ⟨_, rfl, rfl, rfl, rfl, rfl⟩

/--
A second run over distinct files succeeds with the sources of the first, puts
every table back with all its entries cached, and calls nothing.
-/
theorem rerun_settles (built : ∀ g ∈ generators, g.Built)
    (h : Reached anyOperation generators options s) {o : Operation} {job : Job}
    (hjob : s.job? o = some job) (hok : (s.perform o).outcome = .ok s')
    (hids : (job.compilation.trees.map (·.id)).Nodup)
    (hpaths : (job.texts.map (·.path)).Nodup) {compilation : Compilation}
    (hagrees : job.compilation.agrees compilation = true) :
    ∃ s'', (s'.run compilation).outcome = .ok s'' ∧
      s'.Settles (s'.run compilation).journal s'' := by
  have w : ∀ generator ∈ generators, generator.graph.WellFormed :=
    fun g hg => (built g hg).wellFormed
  obtain rfl := Compilation.eq_of_agrees hagrees
  have hbefore := h.solvesAll w hjob hok
  obtain ⟨rfl, rfl, aligned⟩ := Reached.generators_eq w (h.step trivial hok)
  obtain ⟨last, hlast, hcompilation, hlasttexts, htexts, hpending⟩ :=
    exists_last hjob hok
  rw [← hcompilation] at hids ⊢
  rw [← hlasttexts] at hpaths
  exact run_again_settles w aligned hlast hids hpaths hbefore htexts hpending

end Session

/-! ## A generator that lists classes -/

namespace Census

open Session Syntax

def classes : Handle .many .source × Builder Unit :=
  @Builder.filter Unit .source { id := 0 } (·.kind == .classType)
    fun t n => ⟨n.name.getD "", t.path⟩

def marker : Marker :=
  ⟨"Counted", by decide⟩

def counted : Handle .many .marked × Builder Unit :=
  classes.2.register (.marked classes.2.inputTrees.1.step marker
    .typeDeclaration) .many .marked

def marks : Handle .many .source × Builder Unit :=
  @Builder.select Unit .marked .source counted.2 counted.1
    fun (m : Marked) => ⟨m.node.name.getD "" ++ "!", ""⟩

def builder : Builder Unit :=
  (((marks.2.output .source classes.1).output .implementation
    marks.1).nameStep classes.1 "classes").nameStep counted.1 "counted"

/-- A source for each class, then an implementation for each marked class. -/
def generator : Generator Unit where
  name := "census"
  graph := ⟨builder.steps, builder.outputs⟩

theorem registered : builder.Registered := by
  have hclasses : Builder.Registered classes.2 := .filter _ _ (.start 0)
  have hcounted : Builder.Registered counted.2 :=
    @Builder.Registered.marked _ _ _ "Counted" .typeDeclaration _ hclasses rfl
  have hmarks : Builder.Registered marks.2 :=
    .select _ _ hcounted fun _ => ⟨_, rfl, rfl⟩
  have houtput := hmarks.output .source classes.1 fun _ => ⟨_, rfl, rfl⟩
  have houtputs := houtput.output .implementation marks.1 fun _ => ⟨_, rfl, rfl⟩
  have hnamed := houtputs.nameStep classes.1 "classes" fun _ => ⟨_, rfl, rfl⟩
  exact hnamed.nameStep counted.1 "counted" fun _ => ⟨_, rfl, rfl⟩

theorem built : ∀ g ∈ [generator], g.Built := by
  rintro g (_ | ⟨_, ⟨⟩⟩)
  exact ⟨builder, registered, rfl⟩

def blank : Session Unit :=
  { generators := [generator], options := { trackSteps := true } }

def apart : Compilation :=
  ⟨[⟨⟨1⟩, "a.cs", .unit [] [(Node.declaration .classType "A").marked
      ["Counted"]]⟩,
    ⟨⟨2⟩, "b.cs", .unit [] [.declaration .classType "B"]⟩]⟩

theorem apart_settles :
    ∃ s s', (blank.perform (.run apart .never)).outcome = .ok s ∧
      s.shown = [("census", [⟨"A", "a.cs"⟩, ⟨"B", "b.cs"⟩, ⟨"A!", ""⟩])] ∧
      (s.run apart).outcome = .ok s' ∧ s.Settles (s.run apart).journal s' := by
  have hok := ok_of_isSome blank
    (show (blank.perform (.run apart .never)).outcome.toOption.isSome = true
      by decide +kernel)
  obtain ⟨s', hs', hsettles⟩ := rerun_settles built .start rfl hok
    (by decide) (by decide) (show apart.agrees apart = true by decide)
  exact ⟨_, s', hok, by decide +kernel, hs', hsettles⟩

end Census

end Regen
