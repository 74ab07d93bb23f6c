import Regen.Proofs.Graph.Registration
import Regen.Proofs.Session.History

/-!
# What a session has published

Whatever its history, a session holds the tables that solve the equations of its
last run, and the result of that run shows the sources in these tables.
-/

namespace Regen

open RunContext

variable {U : Type}

structure Publication.Aligned (p : Publication U) : Prop where
  distinct : p.tables.Distinct
  unpublished : p.lastRun = none → ∀ key, p.tables.find? key = none
  tables : ∀ last, p.lastRun = some last → ∀ i generator,
    p.generators[i]? = some generator →
      p.tables.Aligned p.options last.compilation.trees last.texts ⟨i⟩
        generator.graph
  shown : ∀ last, p.lastRun = some last →
    verdict (gatherAll p.options p.tables 0 p.generators) =
      .ok (last.result.generators.map (·.shown))

namespace Session

def shown (s : Session U) : List (String × List Generated) :=
  match s.lastRun with
  | some last => last.result.generators.map (·.shown)
  | none => []

theorem verdict_eq {s : Session U} (aligned : s.publication.Aligned)
    {last : LastRun} (hlast : s.lastRun = some last) :
    verdict (gatherAll s.options s.tables 0 s.generators) = .ok s.shown := by
  rw [shown, hlast]
  exact aligned.shown last hlast

/-- How a run ends whose tables are `final`. -/
inductive Ends (s : Session U) (job : Job) (final : Store (Carrier U)) :
    Except RunError (Session U) → Prop
  | refused {e : RunError}
      (h : verdict (gatherAll s.options final 0 s.generators) = .error e) :
      Ends s job final (.error e)
  | published {runs : List GeneratorRun}
      (h : verdict (gatherAll s.options final 0 s.generators) =
        .ok (runs.map (·.shown))) :
      Ends s job final (.ok (s.publish job final runs))

theorem Ends.shown_eq {s : Session U} {job : Job} {final : Store (Carrier U)}
    {outcome : Except RunError (Session U)} (h : s.Ends job final outcome) :
    outcome.map shown =
      verdict (gatherAll s.options final 0 s.generators) := by
  cases h with
  | refused h => exact h.symm
  | published h => exact h.symm

variable [BEq U] {s : Session U} {job : Job}

/-- The trees of a run that absorbs edits are those of the run before. -/
def Follows (s : Session U) (job : Job) : Prop :=
  job.mode = .edits → ∃ last, s.lastRun = some last ∧
    last.compilation = job.compilation

omit [BEq U] in
theorem resumes (aligned : s.publication.Aligned) (follows : s.Follows job)
    {i : Nat} {generator : Generator U}
    (hi : s.generators[i]? = some generator) :
    (s.context job).Resumes ⟨i⟩ generator.graph := by
  cases hlast : s.lastRun with
  | none => exact .afresh fun key _ => aligned.unpublished hlast key
  | some last =>
      refine .from (aligned.tables last hlast i generator hi) fun hmode => ?_
      obtain ⟨last', hlast', hsame⟩ := follows hmode
      obtain rfl : last = last' := Option.some.inj (hlast.symm.trans hlast')
      exact congrArg Compilation.trees hsame

/-- Over distinct files every run leaves the tables of a full run. -/
theorem solves_full (aligned : s.publication.Aligned) (follows : s.Follows job)
    {i : Nat} {generator : Generator U}
    (hi : s.generators[i]? = some generator) (w : generator.graph.WellFormed)
    (hids : (job.compilation.trees.map (·.id)).Nodup)
    {tables : Store (Carrier U)}
    (h : (s.context job).Solves ⟨i⟩ generator.graph tables) :
    (s.context job).full.Solves ⟨i⟩ generator.graph tables := by
  cases hmode : job.mode with
  | full =>
      have hsame : (s.context job).full = s.context job := by
        rw [RunContext.full, context, hmode]
      rwa [hsame]
  | edits =>
      obtain ⟨last, hlast, hsame⟩ := follows hmode
      have haligned := aligned.tables last hlast i generator hi
      rw [hsame] at haligned
      exact h.full w haligned hids

omit [BEq U] in
theorem context_fits (aligned : s.publication.Aligned)
    (follows : s.Follows job) :
    (s.context job).previous.Fits 0 s.generators where
  distinct := aligned.distinct
  typed i generator hi := by
    rw [Nat.zero_add]
    exact (resumes aligned follows hi).typed

theorem executeJob_eq
    (w : ∀ generator ∈ s.generators, generator.graph.WellFormed)
    (aligned : s.publication.Aligned) (follows : s.Follows job) :
    ∃ final, (s.context job).SolvesAll 0 s.generators final ∧
      (s.executeJob job).outcome =
        (verdict (gatherAll s.options final 0 s.generators)).map (fun _ =>
          s.publish job final
            ((s.context job).runsAll final 0 s.generators)) ∧
      (∀ shown, verdict (gatherAll s.options final 0 s.generators) =
          .ok shown →
        ∃ sources, (s.executeJob job).journal =
          (s.context job).actionsAll final 0 s.generators ++
            [.report (.runComplete job.mode s.revision.next sources)]) := by
  obtain ⟨final, hsolves, -, hrun, hjournal⟩ := runAll_eq w
    (context_fits aligned follows) {} .empty fun _ _ => rfl
  have hoptions : (s.context job).options = s.options := rfl
  rw [hoptions] at hrun hjournal
  refine ⟨final, hsolves, ?_, fun shown hverdict => ?_⟩
  · rw [outcome_executeJob, hrun]
    cases verdict (gatherAll s.options final 0 s.generators) <;> rfl
  · have hjournal := hjournal shown hverdict
    rw [hverdict] at hrun
    rw [executeJob, execute, ← hjournal]
    rw [context] at hrun ⊢
    generalize RunContext.runAll _ 0 s.generators {} = ran at hrun ⊢
    obtain ⟨journal, outcome⟩ := ran
    obtain rfl : outcome = _ := hrun
    exact ⟨_, rfl⟩

theorem executeJob_publishes
    (w : ∀ generator ∈ s.generators, generator.graph.WellFormed)
    (aligned : s.publication.Aligned) (follows : s.Follows job)
    {t : Session U} (hok : (s.executeJob job).outcome = .ok t) :
    ∃ final shown sources,
      (s.context job).SolvesAll 0 s.generators final ∧
      verdict (gatherAll s.options final 0 s.generators) = .ok shown ∧
      t = s.publish job final
        ((s.context job).runsAll final 0 s.generators) ∧
      (s.executeJob job).journal =
        (s.context job).actionsAll final 0 s.generators ++
          [.report (.runComplete job.mode s.revision.next sources)] := by
  obtain ⟨final, hsolves, houtcome, hjournal⟩ := executeJob_eq w aligned follows
  rw [houtcome] at hok
  cases hverdict : verdict (gatherAll s.options final 0 s.generators) with
  | error e =>
      rw [hverdict] at hok
      contradiction
  | ok shown =>
      rw [hverdict] at hok
      obtain ⟨sources, hjournal⟩ := hjournal shown hverdict
      exact ⟨final, shown, sources, hsolves, hverdict,
        (Except.ok.inj hok).symm, hjournal⟩

theorem executeJob_ends
    (w : ∀ generator ∈ s.generators, generator.graph.WellFormed)
    (aligned : s.publication.Aligned) (follows : s.Follows job) :
    ∃ final, (s.context job).SolvesAll 0 s.generators final ∧
      s.Ends job final (s.executeJob job).outcome := by
  obtain ⟨final, hsolves, hrun, -⟩ := executeJob_eq w aligned follows
  refine ⟨final, hsolves, ?_⟩
  rw [hrun]
  cases hverdict : verdict (gatherAll s.options final 0 s.generators) with
  | error e => exact .refused hverdict
  | ok shown =>
      refine .published (hverdict.trans ?_)
      rw [map_shown_runsAll]
      exact congrArg Except.ok (eq_of_verdict hverdict)

private theorem publish_aligned
    (w : ∀ generator ∈ s.generators, generator.graph.WellFormed)
    (aligned : s.publication.Aligned) (follows : s.Follows job)
    {final : Store (Carrier U)}
    (hsolves : (s.context job).SolvesAll 0 s.generators final)
    {runs : List GeneratorRun}
    (hverdict : verdict (gatherAll s.options final 0 s.generators) =
      .ok (runs.map (·.shown))) :
    (s.publish job final runs).publication.Aligned where
  distinct := hsolves.distinct
  unpublished hnone := by contradiction
  tables := by
    intro last hlast i generator hi
    obtain rfl := Option.some.inj hlast
    exact (hsolves.of_getElem? hi).aligned
      (w generator (List.mem_of_getElem? hi))
      (resumes aligned follows hi)
  shown := by
    intro last hlast
    obtain rfl := Option.some.inj hlast
    exact hverdict

omit [BEq U] in
theorem start_aligned (generators : List (Generator U)) (options : Options) :
    (publication { generators, options }).Aligned where
  distinct := .empty
  unpublished _ _ := rfl
  tables := nofun
  shown := nofun

theorem follows_of_job? {o : Operation} (h : s.job? o = some job) :
    s.Follows job := by
  intro hmode
  obtain ⟨last, hlast, hagrees⟩ := lastRun_of_edits h hmode
  exact ⟨last, hlast, Compilation.eq_of_agrees hagrees⟩

/-- An operation either leaves the publication alone or publishes a run. -/
theorem perform_cases {s' : Session U} {o : Operation}
    (w : ∀ generator ∈ s.generators, generator.graph.WellFormed)
    (aligned : s.publication.Aligned) (h : (s.perform o).outcome = .ok s') :
    (s.job? o = none ∧ s'.publication = s.publication) ∨
      ∃ job final runs, s.job? o = some job ∧
        (s.context job).SolvesAll 0 s.generators final ∧
        verdict (gatherAll s.options final 0 s.generators) =
          .ok (runs.map (·.shown)) ∧ s' = s.publish job final runs := by
  cases hjob : s.job? o with
  | none => exact .inl ⟨rfl, publication_of_job?_none hjob h⟩
  | some job =>
      obtain ⟨final, hsolves, hends⟩ :=
        executeJob_ends w aligned (follows_of_job? hjob)
      rcases outcome_perform hjob with ⟨-, hcancelled⟩ | hout
      · rw [hcancelled] at h
        contradiction
      · rw [← hout, h] at hends
        cases hends with
        | published hverdict =>
            exact .inr ⟨job, final, _, rfl, hsolves, hverdict, rfl⟩

variable {allowed : Session U → Operation → Prop}
  {generators : List (Generator U)} {options : Options}

theorem Reached.generators_eq
    (w : ∀ generator ∈ generators, generator.graph.WellFormed)
    (h : Reached allowed generators options s) :
    s.generators = generators ∧ s.options = options ∧
      s.publication.Aligned := by
  induction h with
  | start => exact ⟨rfl, rfl, start_aligned generators options⟩
  | @step s s' o _ _ hok ih =>
      obtain ⟨hgenerators, hoptions, aligned⟩ := ih
      have w' : ∀ generator ∈ s.generators, generator.graph.WellFormed := by
        rw [hgenerators]
        exact w
      rcases perform_cases w' aligned hok with
        ⟨-, hsame⟩ | ⟨job, final, runs, hjob, hsolves, hverdict, rfl⟩
      · rw [hsame]
        exact ⟨(congrArg Publication.generators hsame).trans hgenerators,
          (congrArg Publication.options hsame).trans hoptions, aligned⟩
      · exact ⟨hgenerators, hoptions,
          publish_aligned w' aligned (follows_of_job? hjob) hsolves hverdict⟩

end Session

theorem ok_of_isSome {ε α : Type} (a : α) {x : Except ε α}
    (h : x.toOption.isSome = true) : x = .ok (x.toOption.getD a) := by
  cases x with
  | error e => contradiction
  | ok b => rfl

/-! ## A session that lists its files -/

namespace Lister

open Syntax

def files : Compilation :=
  ⟨[⟨⟨1⟩, "a.cs", .unit [] []⟩, ⟨⟨2⟩, "b.cs", .unit [] []⟩]⟩

def note : TextFile :=
  ⟨"x.txt", "hello"⟩

def blank : Session Unit :=
  { generators := [generator] }

def ran : Session Unit :=
  (blank.perform (.run files .never)).outcome.toOption.getD blank

theorem outcome_blank :
    (blank.perform (.run files .never)).outcome = .ok ran :=
  ok_of_isSome blank (by decide +kernel)

theorem ran_reached : Session.Reached Session.anyOperation [generator] {} ran :=
  .step .start trivial outcome_blank

theorem lastRun_ran :
    ∃ last, ran.lastRun = some last ∧ last.compilation = files ∧
      last.texts = [] := by
  have hlast : ran.lastRun.map (fun last => (last.compilation, last.texts)) =
      some (files, []) := by
    decide +kernel
  obtain ⟨last, hlast, hsame⟩ := Option.map_eq_some_iff.1 hlast
  exact ⟨last, hlast, Prod.mk.inj hsame⟩

theorem nodup_files : (files.trees.map (·.id)).Nodup := by
  decide

theorem all_built : ∀ g ∈ [generator], g.Built := by
  rintro g (_ | ⟨_, ⟨⟩⟩)
  exact built

end Lister

end Regen
