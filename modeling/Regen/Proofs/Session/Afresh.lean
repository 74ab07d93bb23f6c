import Regen.Proofs.Run.Faithful
import Regen.Proofs.Session.Published

/-!
# As if there had been no past

As long as the files that remain keep their order from one published run to the
next, every run ends as the first run of a new session over the same files
would end: with the same sources in the same order, or the same error.
-/

namespace Regen

open RunContext

variable {U : Type}

def Generator.Respects [BEq U] (known : TextFile → Prop) (g : Generator U) :
    Prop :=
  ∀ s ∈ g.graph.steps, s.step.Respects known

namespace Session

def afresh (generators : List (Generator U)) (options : Options)
    (texts : List TextFile) : Session U :=
  ({ generators, options } : Session U).addTexts texts

/--
The run goes over distinct files with known texts, and the files that are left
of those of the last run stand in their old order.
-/
structure Steady (known : TextFile → Prop) (s : Session U) (job : Job) :
    Prop where
  ids : (job.compilation.trees.map (·.id)).Nodup
  paths : (job.texts.map (·.path)).Nodup
  known : ∀ t ∈ job.texts, known t
  treeOrder : ∀ last, s.lastRun = some last →
    SameOrder (last.compilation.trees.map (·.id))
      (job.compilation.trees.map (·.id))
  textOrder : ∀ last, s.lastRun = some last →
    SameOrder (last.texts.map (·.path)) (job.texts.map (·.path))

def steadily (known : TextFile → Prop) (s : Session U) (o : Operation) : Prop :=
  ∀ job, s.job? o = some job → s.Steady known job

private theorem foldl_upsert {old new : List TextFile}
    (h : ((old ++ new).map (·.path)).Nodup) :
    new.foldl (fun all t => upsert (·.path == t.path) t all) old =
      old ++ new := by
  induction new generalizing old with
  | nil => simp
  | cons t new ih =>
      have hfresh : ∀ a ∈ old, (a.path == t.path) = false := by
        intro a ha
        rw [List.map_append, List.nodup_append] at h
        simpa using h.2.2 a.path (List.mem_map_of_mem ha) t.path (by simp)
      rw [List.foldl_cons, upsert_eq_append hfresh, ih (by simpa using h),
        List.append_assoc]
      rfl

private theorem texts_afresh (generators : List (Generator U)) (options : Options)
    {texts : List TextFile} (h : (texts.map (·.path)).Nodup) :
    (afresh generators options texts).texts = texts :=
  foldl_upsert h

end Session

structure Publication.Faithful [BEq U] (known : TextFile → Prop)
    (p : Publication U) : Prop where
  ids : ∀ last, p.lastRun = some last →
    (last.compilation.trees.map (·.id)).Nodup
  paths : ∀ last, p.lastRun = some last → (last.texts.map (·.path)).Nodup
  tables : ∀ last, p.lastRun = some last → ∀ i generator,
    p.generators[i]? = some generator →
      p.tables.Faithful known last.compilation.trees last.texts ⟨i⟩
        generator.graph

namespace Session

variable [BEq U] [EquivBEq U] {known : TextFile → Prop}
  (free : CollisionFree known)

include free

theorem Steady.faithful {s : Session U} {job : Job}
    (steady : s.Steady known job) (aligned : s.publication.Aligned)
    (faithful : s.publication.Faithful known) (follows : s.Follows job)
    {i : Nat} {generator : Generator U}
    (hi : s.generators[i]? = some generator) (w : generator.graph.WellFormed)
    (respects : generator.Respects known) {tables : Store (Carrier U)}
    (h : (s.context job).Solves ⟨i⟩ generator.graph tables) :
    tables.Faithful known job.compilation.trees job.texts ⟨i⟩
      generator.graph := by
  have hsteps : ∀ {id u}, generator.graph.step? id = some u →
      u.step.Respects known := fun hu =>
    respects _ (List.mem_of_getElem? hu)
  have hfull := solves_full aligned follows hi w steady.ids h
  cases hlast : s.lastRun with
  | none =>
      have hnone : s.tables.Faithful known [] [] ⟨i⟩ generator.graph :=
        Store.faithful_of_none (fun key _ => aligned.unpublished hlast key) [] []
      exact hfull.faithful w (.of_nil _ steady.known) hnone free hsteps
  | some last =>
      exact hfull.faithful w
        ⟨faithful.ids last hlast, faithful.paths last hlast,
          steady.treeOrder last hlast, steady.textOrder last hlast,
          steady.known⟩
        (faithful.tables last hlast i generator hi) free hsteps

theorem Steady.shown_eq {s s' : Session U} {job job' : Job}
    (w : ∀ generator ∈ s.generators, generator.graph.WellFormed)
    (respects : ∀ generator ∈ s.generators, generator.Respects known)
    (hgenerators : s'.generators = s.generators)
    (hoptions : s'.options = s.options)
    (htrees : job'.compilation.trees = job.compilation.trees)
    (htexts : job'.texts = job.texts)
    (steady : s.Steady known job) (aligned : s.publication.Aligned)
    (faithful : s.publication.Faithful known) (follows : s.Follows job)
    (steady' : s'.Steady known job') (aligned' : s'.publication.Aligned)
    (faithful' : s'.publication.Faithful known) (follows' : s'.Follows job') :
    (s.executeJob job).outcome.map shown =
      (s'.executeJob job').outcome.map shown := by
  have w' := w
  rw [← hgenerators] at w'
  obtain ⟨final, hsolves, hends⟩ := executeJob_ends w aligned follows
  obtain ⟨final', hsolves', hends'⟩ := executeJob_ends w' aligned' follows'
  rw [hends.shown_eq, hends'.shown_eq, hgenerators, hoptions]
  refine congrArg verdict (gatherAll_congr fun i generator hi => ?_)
  have hi' : s'.generators[i]? = some generator := by rwa [hgenerators]
  have hmem := List.mem_of_getElem? hi
  have hsolved := hsolves.of_getElem? hi
  have hsolved' := hsolves'.of_getElem? hi'
  rw [Nat.zero_add]
  have hfinal := steady.faithful free aligned faithful follows hi
    (w generator hmem) (respects generator hmem) hsolved
  have hfinal' := steady'.faithful free aligned' faithful' follows' hi'
    (w generator hmem) (respects generator hmem) hsolved'
  rw [htrees, htexts] at hfinal'
  have shaped : final.Shaped s.options ⟨i⟩ generator.graph :=
    (hsolved.aligned (w generator hmem) (resumes aligned follows hi)).shaped
  have shaped' : final'.Shaped s'.options ⟨i⟩ generator.graph :=
    (hsolved'.aligned (w generator hmem)
      (resumes aligned' follows' hi')).shaped
  rw [hoptions] at shaped'
  exact hfinal.gather_eq (w generator hmem) free
    (fun hu => respects generator hmem _ (List.mem_of_getElem? hu))
    steady.known shaped shaped' hfinal'

variable {generators : List (Generator U)} {options : Options}
  (built : ∀ generator ∈ generators, generator.Built)
  (respects : ∀ generator ∈ generators, generator.Respects known)

include built respects

theorem Reached.faithful {s : Session U}
    (h : Reached (steadily known) generators options s) :
    s.publication.Faithful known := by
  have w : ∀ generator ∈ generators, generator.graph.WellFormed :=
    fun g hg => (built g hg).wellFormed
  induction h with
  | start => exact ⟨nofun, nofun, nofun⟩
  | @step s s' o hs hsteady hok ih =>
      obtain ⟨rfl, rfl, aligned⟩ := hs.generators_eq w
      rcases perform_cases w aligned hok with
        ⟨-, hsame⟩ | ⟨job, final, runs, hjob, hsolves, -, rfl⟩
      · rw [hsame]
        exact ih
      · have steady := hsteady job hjob
        refine ⟨fun last hlast => ?_, fun last hlast => ?_,
          fun last hlast i generator hi => ?_⟩
        · obtain rfl := Option.some.inj hlast
          exact steady.ids
        · obtain rfl := Option.some.inj hlast
          exact steady.paths
        · obtain rfl := Option.some.inj hlast
          have hmem := List.mem_of_getElem? hi
          exact steady.faithful free aligned ih (follows_of_job? hjob) hi
            (w generator hmem) (respects generator hmem)
            (hsolves.of_getElem? hi)

/--
Every run, full or absorbing edits, shows what the first run of a new session
over the same trees and texts shows, unless it is cancelled.
-/
theorem perform_eq_afresh {s : Session U}
    (h : Reached (steadily known) generators options s) {o : Operation}
    {job : Job} (hjob : s.job? o = some job) (steady : s.Steady known job) :
    o.cancellation ≠ .never ∧ (s.perform o).outcome = .error .cancelled ∨
      (s.perform o).outcome.map shown =
        ((afresh generators options job.texts).run
          job.compilation).outcome.map shown := by
  refine (outcome_perform hjob).imp_right fun hout => ?_
  have faithful := h.faithful free built respects
  obtain ⟨rfl, rfl, aligned⟩ := h.generators_eq fun g hg => (built g hg).wellFormed
  have w : ∀ generator ∈ s.generators, generator.graph.WellFormed :=
    fun g hg => (built g hg).wellFormed
  let first : Job := ⟨.full, job.compilation, job.texts⟩
  have hrun : ((afresh s.generators s.options job.texts).run
      job.compilation).outcome =
        ((afresh s.generators s.options job.texts).executeJob
          first).outcome := by
    have htexts : (TextEdit.applyFitting
        (afresh s.generators s.options job.texts).texts []).1 = job.texts :=
      texts_afresh _ _ steady.paths
    rw [run, Traced.under_never, outcome_runTraced]
    exact congrArg (fun texts => (executeJob _ ⟨_, _, texts⟩).outcome) htexts
  have steadyFirst :
      (afresh s.generators s.options job.texts).Steady known first :=
    ⟨steady.ids, steady.paths, steady.known, nofun, nofun⟩
  rw [hout, hrun]
  exact steady.shown_eq free w respects rfl rfl rfl rfl aligned faithful
    (follows_of_job? hjob) steadyFirst
    (start_aligned s.generators s.options) ⟨nofun, nofun, nofun⟩ nofun

end Session

namespace Lister

open Carrier Session Syntax

def inserted : Compilation :=
  ⟨[⟨⟨1⟩, "a.cs", .unit [] []⟩, ⟨⟨3⟩, "c.cs", .unit [] []⟩,
    ⟨⟨2⟩, "b.cs", .unit [] []⟩]⟩

def noted : Session Unit :=
  ran.enqueue (.add note)

theorem respects (known : TextFile → Prop) :
    ∀ g ∈ [generator], g.Respects known := by
  rintro g (_ | ⟨_, ⟨⟩⟩)
  rintro s (_ | ⟨_, _ | ⟨_, _ | ⟨_, _ | ⟨_, _ | ⟨_, _ | ⟨_, ⟨⟩⟩⟩⟩⟩⟩⟩)
  · trivial
  · exact alike_map_of_lawful fun _ _ => rfl
  · trivial
  · exact alike_map_of_lawful fun _ _ => rfl
  · trivial
  · trivial

theorem free : CollisionFree (· = note) := by
  rintro a b rfl rfl _
  rfl

private theorem noted_reached :
    Reached (steadily (· = note)) [generator] {} noted := by
  have hran : Reached (steadily (· = note)) [generator] {} ran := by
    refine .step (o := .run files .never) .start (fun job hjob => ?_)
      outcome_blank
    obtain rfl := Option.some.inj hjob
    exact ⟨nodup_files, List.nodup_nil, nofun, nofun, nofun⟩
  exact .step (o := .enqueue (.add note)) hran nofun rfl

private theorem job_noted :
    noted.job? (.run inserted .never) = some ⟨.full, inserted, [note]⟩ := by
  have happly : (TextEdit.applyFitting noted.texts noted.pending).1 =
      [note] := by
    decide +kernel
  rw [job?, happly]

private theorem steady_noted :
    noted.Steady (· = note) ⟨.full, inserted, [note]⟩ := by
  obtain ⟨last, hlast, hfiles, htexts⟩ := lastRun_ran
  have hsame : ∀ last', noted.lastRun = some last' → last' = last :=
    fun last' hlast' => Option.some.inj (hlast'.symm.trans hlast)
  refine ⟨by decide, by decide, by simp, fun last' hlast' => ?_,
    fun last' hlast' => ?_⟩
  · rw [hsame last' hlast', hfiles]
    decide
  · rw [hsame last' hlast', htexts]
    exact .of_nil _

theorem inserted_eq_afresh :
    noted.job? (.run inserted .never) = some ⟨.full, inserted, [note]⟩ ∧
      (noted.perform (.run inserted .never)).outcome.map shown =
        ((afresh [generator] {} [note]).run inserted).outcome.map shown := by
  refine ⟨job_noted, ?_⟩
  rcases perform_eq_afresh free all_built (respects _) noted_reached job_noted
    steady_noted with ⟨hcancel, -⟩ | heq
  · exact absurd rfl hcancel
  · exact heq

end Lister

end Regen
