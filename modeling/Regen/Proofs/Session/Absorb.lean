import Regen.Proofs.Session.Published

/-!
# Absorbed edits

A run that absorbs the queued edits keeps the tables of all steps that do not
read texts.  A full run in its place would evaluate these steps and publish the
very same tables.
-/

namespace Regen

open RunContext

variable {U : Type}

namespace Session

/-- Nothing tells these sessions apart but what tracked steps report. -/
structure Agrees (s s' : Session U) : Prop where
  texts : s.texts = s'.texts
  pending : s.pending = [] ∧ s'.pending = []
  status : s.status = .clean ∧ s'.status = .clean
  revision : s.revision = s'.revision
  shown : s.shown = s'.shown
  tables : ∀ key, s.tables.find? key = s'.tables.find? key

inductive SameOutcome :
    Except RunError (Session U) → Except RunError (Session U) → Prop
  | error (e : RunError) : SameOutcome (.error e) (.error e)
  | ok {s s' : Session U} : s.Agrees s' → SameOutcome (.ok s) (.ok s')

variable [BEq U] {s : Session U}

omit [BEq U] in
private theorem Ends.sameOutcome {job job' : Job} {final final' : Store (Carrier U)}
    {outcome outcome' : Except RunError (Session U)}
    (h : s.Ends job final outcome) (h' : s.Ends job' final' outcome')
    (htexts : job.texts = job'.texts)
    (htables : ∀ key, final.find? key = final'.find? key) :
    SameOutcome outcome outcome' := by
  have hgather : gatherAll s.options final 0 s.generators =
      gatherAll s.options final' 0 s.generators :=
    gatherAll_congr fun i generator _ => gather_congr fun key _ => htables key
  cases h with
  | refused h =>
      cases h' with
      | refused h' =>
          rw [hgather, h'] at h
          obtain rfl := Except.error.inj h
          exact .error _
      | published h' =>
          rw [hgather, h'] at h
          contradiction
  | published h =>
      cases h' with
      | refused h' =>
          rw [hgather, h'] at h
          contradiction
      | published h' =>
          rw [hgather, h'] at h
          have hshown := Except.ok.inj h
          exact .ok ⟨htexts, ⟨rfl, rfl⟩, ⟨rfl, rfl⟩, rfl, hshown.symm, htables⟩

theorem SolvesAll.unique {r : RunContext U} {generators : List (Generator U)}
    (w : ∀ generator ∈ generators, generator.graph.WellFormed)
    {tables tables' : Store (Carrier U)}
    (h : ∀ i generator, generators[i]? = some generator →
      r.Solves ⟨i⟩ generator.graph tables)
    (h' : r.SolvesAll 0 generators tables')
    (hbeyond : ∀ key, generators.length ≤ key.graph.index →
      tables.find? key = none) (key : TableKey) :
    tables.find? key = tables'.find? key := by
  by_cases hlt : key.graph.index < generators.length
  · have hi := List.getElem?_eq_getElem hlt
    exact (h _ _ hi).unique (w _ (List.mem_of_getElem? hi))
      (h'.of_getElem? hi) key rfl
  · have hle := Nat.le_of_not_lt hlt
    rw [hbeyond key hle, h'.beyond key (by simpa using hle)]

/--
Where the queued edits are absorbed by a run, a full run from the same state
over the same trees has the same outcome, table by table.
-/
theorem absorbPending_sameOutcome_run {generators : List (Generator U)}
    {options : Options} (built : ∀ generator ∈ generators, generator.Built)
    (h : Reached anyOperation generators options s)
    (hids : ∀ last, s.lastRun = some last →
      (last.compilation.trees.map (·.id)).Nodup)
    {compilation : Compilation} {texts : List TextFile}
    (habsorbs : s.absorbs? compilation = some texts) :
    SameOutcome (s.absorbPending compilation).outcome
      (s.run compilation).outcome := by
  obtain ⟨rfl, rfl, aligned⟩ := h.generators_eq fun g hg => (built g hg).wellFormed
  have w : ∀ generator ∈ s.generators, generator.graph.WellFormed :=
    fun g hg => (built g hg).wellFormed
  obtain ⟨hedits, happly, last, hlast, hagrees⟩ :=
    absorbPendingTraced_of_absorbs? habsorbs
  obtain rfl := Compilation.eq_of_agrees hagrees
  have follows_edits : s.Follows ⟨.edits, last.compilation, texts⟩ :=
    fun _ => ⟨last, hlast, rfl⟩
  have follows_full : s.Follows ⟨.full, last.compilation, texts⟩ := nofun
  obtain ⟨final, hsolves, hends⟩ := executeJob_ends w aligned follows_edits
  obtain ⟨final', hsolves', hends'⟩ := executeJob_ends w aligned follows_full
  have hfull : ∀ i generator, s.generators[i]? = some generator →
      (s.context ⟨.full, last.compilation, texts⟩).Solves ⟨i⟩ generator.graph
        final := by
    intro i generator hi
    exact (hsolves.of_getElem? hi).full (w generator (List.mem_of_getElem? hi))
      (aligned.tables last hlast i generator hi) (hids last hlast)
  have htables := SolvesAll.unique w hfull hsolves' fun key hle =>
    hsolves.beyond key (by simpa using hle)
  have htexts : (TextEdit.applyFitting s.texts s.pending).1 = texts := by
    rw [TextEdit.applyFitting_of_applyAll? happly]
  rw [absorbPending, Traced.under_never, hedits, run, Traced.under_never,
    outcome_runTraced, htexts]
  exact hends.sameOutcome hends' rfl htables

end Session

namespace Lister

open Session

theorem absorbed_sameOutcome :
    (ran.enqueue (.add note)).absorbs? files = some [note] ∧
      SameOutcome ((ran.enqueue (.add note)).absorbPending files).outcome
        ((ran.enqueue (.add note)).run files).outcome := by
  have hreached : Reached anyOperation [generator] {}
      (ran.enqueue (.add note)) :=
    .step (o := .enqueue (.add note)) ran_reached trivial rfl
  have hids : ∀ last, (ran.enqueue (.add note)).lastRun = some last →
      (last.compilation.trees.map (·.id)).Nodup := by
    obtain ⟨last, hlast, hfiles, -⟩ := lastRun_ran
    intro last' hlast'
    obtain rfl := Option.some.inj (hlast.symm.trans hlast')
    rw [hfiles]
    exact nodup_files
  have habsorbs : (ran.enqueue (.add note)).absorbs? files = some [note] := by
    decide +kernel
  exact ⟨habsorbs,
    absorbPending_sameOutcome_run all_built hreached hids habsorbs⟩

end Lister

end Regen
