import Regen.Proofs.Run.Carried
import Regen.Proofs.Run.Outcome
import Regen.Session

/-!
# Histories of a session

A session goes through any sequence of operations; one that fails leaves it as
it was.  An operation either comes to a run or leaves what was published alone,
and every published store is aligned with the inputs of its run.
-/

namespace Regen

open Syntax

variable {U : Type}

inductive Operation where
  | enqueue (edit : TextEdit)
  | addTexts (texts : List TextFile)
  | removeTexts (paths : List String)
  | replaceText (old new : TextFile)
  | run (compilation : Compilation) (cancel : Cancellation)
  | absorbPending (compilation : Compilation) (cancel : Cancellation)
  | absorbEdits (edits : List TextEdit) (compilation : Compilation)
      (cancel : Cancellation)

def Operation.cancellation : Operation → Cancellation
  | .run _ cancel | .absorbPending _ cancel | .absorbEdits _ _ cancel => cancel
  | _ => .never

structure Job where
  mode : Mode
  compilation : Compilation
  texts : List TextFile

/-- The part of a session that only a run changes. -/
structure Publication (U : Type) where
  generators : List (Generator U)
  options : Options
  tables : Store (Carrier U)
  lastRun : Option LastRun
  revision : Revision

namespace Session

def publication (s : Session U) : Publication U where
  generators := s.generators
  options := s.options
  tables := s.tables
  lastRun := s.lastRun
  revision := s.revision

/-- The texts of the run in which the queued edits are absorbed, if they are. -/
def absorbs? (s : Session U) (compilation : Compilation) :
    Option (List TextFile) :=
  match s.failure with
  | some _ => none
  | none =>
      if s.options.incrementalEdits then
        match s.lastRun with
        | none => none
        | some last =>
            if last.compilation.agrees compilation then
              if s.pending.isEmpty &&
                  sameList TextFile.same last.texts s.texts then none
              else (TextEdit.applyAll? s.texts s.pending).toOption
            else none
      else none

/-- The run that an operation comes to, if it comes to one. -/
def job? (s : Session U) : Operation → Option Job
  | .run compilation _ =>
      some ⟨.full, compilation, (TextEdit.applyFitting s.texts s.pending).1⟩
  | .absorbPending compilation _ =>
      (s.absorbs? compilation).map (⟨.edits, compilation, ·⟩)
  | .absorbEdits edits compilation _ =>
      ((edits.foldl enqueue s).absorbs? compilation).map
        (⟨.edits, compilation, ·⟩)
  | _ => none

def context (s : Session U) (job : Job) : RunContext U where
  options := s.options
  mode := job.mode
  previous := s.tables
  trees := job.compilation.trees
  texts := job.texts

def publish (s : Session U) (job : Job) (tables : Store (Carrier U))
    (runs : List GeneratorRun) : Session U where
  generators := s.generators
  options := s.options
  texts := job.texts
  tables := tables
  lastRun := some ⟨⟨s.revision.next, runs⟩, job.compilation, job.texts⟩
  revision := s.revision.next

theorem foldl_enqueue (s : Session U) (edits : List TextEdit) :
    edits.foldl enqueue s = { s with pending := s.pending ++ edits } := by
  induction edits generalizing s with
  | nil => simp
  | cons edit edits ih => simp [ih, enqueue]

theorem publication_foldl_enqueue (s : Session U) (edits : List TextEdit) :
    (edits.foldl enqueue s).publication = s.publication := by
  rw [foldl_enqueue]
  rfl

variable [BEq U]

def perform (s : Session U) : Operation → Traced (Session U)
  | .enqueue edit => return s.enqueue edit
  | .addTexts texts => return s.addTexts texts
  | .removeTexts paths => return s.removeTexts paths
  | .replaceText old new => return s.replaceText old new
  | .run compilation cancel => s.run compilation cancel
  | .absorbPending compilation cancel => s.absorbPending compilation cancel
  | .absorbEdits edits compilation cancel =>
      s.absorbEdits edits compilation cancel

def executeJob (s : Session U) (job : Job) : Traced (Session U) :=
  s.execute job.compilation job.texts job.mode

theorem outcome_executeJob (s : Session U) (job : Job) :
    (s.executeJob job).outcome =
      ((s.context job).runAll 0 s.generators {}).outcome.map
        fun x => s.publish job x.1 x.2 := by
  rw [executeJob, execute, Traced.outcome_bind, context]
  cases (RunContext.runAll _ 0 s.generators {}).outcome <;> rfl

theorem executeJob_ok {s s' : Session U} {job : Job}
    (h : (s.executeJob job).outcome = .ok s') :
    ∃ tables runs sources, s' = s.publish job tables runs ∧
      .report (.runComplete job.mode s.revision.next sources) ∈
        (s.executeJob job).journal := by
  rw [executeJob, execute] at h ⊢
  generalize RunContext.runAll _ 0 s.generators {} = ran at h ⊢
  obtain ⟨journal, outcome⟩ := ran
  cases outcome with
  | error e => contradiction
  | ok x =>
      refine ⟨x.1, x.2, (RunResult.mk s.revision.next x.2).sources.length,
        (Except.ok.inj h).symm, ?_⟩
      exact List.mem_append_right journal (List.mem_singleton_self _)

theorem executeJob_congr {s s' : Session U}
    (h : s'.publication = s.publication) (job : Job) :
    s'.executeJob job = s.executeJob job := by
  simp only [publication, Publication.mk.injEq] at h
  obtain ⟨hgenerators, hoptions, htables, -, hrevision⟩ := h
  rw [executeJob, executeJob, execute, execute, hgenerators, hoptions, htables,
    hrevision]

/-! ## Operations that come to a run -/

private theorem outcome_under {α : Type} (cancel : Cancellation) (x : Traced α) :
    (x.under cancel).outcome = .error .cancelled ∨ x.under cancel = x := by
  unfold Traced.under
  split
  · exact .inl rfl
  · exact .inr rfl

theorem under_of_ok {α : Type} {cancel : Cancellation} {x : Traced α} {a : α}
    (h : (x.under cancel).outcome = .ok a) : x.under cancel = x := by
  rcases outcome_under cancel x with hcancelled | hsame
  · rw [hcancelled] at h
    contradiction
  · exact hsame

theorem absorbPendingTraced_of_absorbs? {s : Session U}
    {compilation : Compilation} {texts : List TextFile}
    (h : s.absorbs? compilation = some texts) :
    s.absorbPendingTraced compilation =
        s.executeJob ⟨.edits, compilation, texts⟩ ∧
      TextEdit.applyAll? s.texts s.pending = .ok texts ∧
      ∃ last, s.lastRun = some last ∧
        last.compilation.agrees compilation = true := by
  unfold absorbs? at h
  split at h
  · contradiction
  · next hfailure =>
    split at h
    · next hoption =>
      split at h
      · contradiction
      · next last hlast =>
        split at h
        · next hagrees =>
          split at h
          · contradiction
          · next hchanged =>
            cases happly : TextEdit.applyAll? s.texts s.pending with
            | error failure =>
                rw [happly] at h
                contradiction
            | ok texts' =>
                rw [happly] at h
                obtain rfl : texts' = texts := Option.some.inj h
                refine ⟨?_, rfl, last, hlast, hagrees⟩
                rw [absorbPendingTraced, hfailure, hlast]
                simp only [hoption, hagrees, if_true, absorb, hchanged, happly]
                rfl
        · contradiction
    · contradiction

theorem absorbPendingTraced_of_absorbs?_none {s : Session U}
    {compilation : Compilation} (h : s.absorbs? compilation = none) :
    s.absorbPendingTraced compilation = pure s ∨ s.failure = none ∧
      ∃ failure, s.absorbPendingTraced compilation = s.fail failure := by
  unfold absorbs? at h
  unfold absorbPendingTraced
  split
  · exact .inl rfl
  · next hfailure =>
    split
    · next hoption =>
      split
      · exact .inr ⟨hfailure, _, rfl⟩
      · next last hlast =>
        split
        · next hagrees =>
          rw [absorb]
          split
          · exact .inl rfl
          · next hchanged =>
            split
            · next texts happly =>
              simp [hfailure, hoption, hlast, hagrees, happly,
                Except.toOption] at h
              simp [h] at hchanged
            · exact .inr ⟨hfailure, _, rfl⟩
        · exact .inr ⟨hfailure, _, rfl⟩
    · exact .inr ⟨hfailure, _, rfl⟩

private theorem publication_of_absorbs?_none {s s' : Session U}
    {compilation : Compilation} (h : s.absorbs? compilation = none)
    (hs' : (s.absorbPendingTraced compilation).outcome = .ok s') :
    s'.publication = s.publication := by
  rcases absorbPendingTraced_of_absorbs?_none h with hsame | ⟨-, _, hfail⟩
  · rw [hsame] at hs'
    obtain rfl := Except.ok.inj hs'
    rfl
  · rw [hfail] at hs'
    obtain rfl := Except.ok.inj hs'
    rfl

theorem outcome_runTraced (s : Session U) (compilation : Compilation) :
    (s.runTraced compilation).outcome =
      (s.executeJob ⟨.full, compilation,
        (TextEdit.applyFitting s.texts s.pending).1⟩).outcome := by
  rw [runTraced, Traced.outcome_bind]
  rfl

theorem outcome_perform {s : Session U} {o : Operation} {job : Job}
    (h : s.job? o = some job) :
    o.cancellation ≠ .never ∧ (s.perform o).outcome = .error .cancelled ∨
      (s.perform o).outcome = (s.executeJob job).outcome := by
  have under : ∀ (cancel : Cancellation) (x : Traced (Session U)),
      x.outcome = (s.executeJob job).outcome →
      cancel ≠ .never ∧ (x.under cancel).outcome = .error .cancelled ∨
        (x.under cancel).outcome = (s.executeJob job).outcome := by
    intro cancel x hx
    by_cases hnever : cancel = .never
    · rw [hnever, Traced.under_never]
      exact .inr hx
    · rcases outcome_under cancel x with hcancelled | hout
      · exact .inl ⟨hnever, hcancelled⟩
      · exact .inr ((congrArg Traced.outcome hout).trans hx)
  cases o with
  | run compilation cancel =>
      obtain rfl := Option.some.inj h
      exact under cancel _ (s.outcome_runTraced compilation)
  | absorbPending compilation cancel =>
      obtain ⟨texts, htexts, rfl⟩ := Option.map_eq_some_iff.1 h
      refine under cancel _ ?_
      rw [(absorbPendingTraced_of_absorbs? htexts).1]
  | absorbEdits edits compilation cancel =>
      obtain ⟨texts, htexts, rfl⟩ := Option.map_eq_some_iff.1 h
      refine under cancel _ ?_
      rw [(absorbPendingTraced_of_absorbs? htexts).1,
        executeJob_congr (publication_foldl_enqueue s edits)]
  | enqueue edit => contradiction
  | addTexts texts => contradiction
  | removeTexts paths => contradiction
  | replaceText old new => contradiction

theorem exists_publish {s s' : Session U} {o : Operation} {job : Job}
    (hjob : s.job? o = some job) (hok : (s.perform o).outcome = .ok s') :
    ∃ tables runs, s' = s.publish job tables runs := by
  rcases outcome_perform hjob with ⟨-, hcancelled⟩ | hout
  · rw [hcancelled] at hok
    contradiction
  · rw [hout] at hok
    obtain ⟨tables, runs, -, hs', -⟩ := executeJob_ok hok
    exact ⟨tables, runs, hs'⟩

theorem publication_of_job?_none {s s' : Session U} {o : Operation}
    (h : s.job? o = none) (hs' : (s.perform o).outcome = .ok s') :
    s'.publication = s.publication := by
  have under : ∀ (cancel : Cancellation) (x : Traced (Session U)),
      (x.under cancel).outcome = .ok s' → x.outcome = .ok s' := by
    intro cancel x hx
    rwa [under_of_ok hx] at hx
  cases o with
  | run compilation cancel => contradiction
  | absorbPending compilation cancel =>
      have hnone := Option.map_eq_none_iff.1 h
      exact publication_of_absorbs?_none hnone (under cancel _ hs')
  | absorbEdits edits compilation cancel =>
      have hnone := Option.map_eq_none_iff.1 h
      rw [publication_of_absorbs?_none hnone (under cancel _ hs'),
        publication_foldl_enqueue]
  | enqueue edit =>
      obtain rfl := Except.ok.inj hs'
      rfl
  | addTexts texts =>
      obtain rfl := Except.ok.inj hs'
      rfl
  | removeTexts paths =>
      obtain rfl := Except.ok.inj hs'
      rfl
  | replaceText old new =>
      obtain rfl := Except.ok.inj hs'
      rfl

theorem lastRun_of_edits {s : Session U} {o : Operation} {job : Job}
    (h : s.job? o = some job) (hmode : job.mode = .edits) :
    ∃ last, s.lastRun = some last ∧
      last.compilation.agrees job.compilation = true := by
  cases o with
  | run compilation cancel =>
      obtain rfl := Option.some.inj h
      contradiction
  | absorbPending compilation cancel =>
      obtain ⟨texts, htexts, rfl⟩ := Option.map_eq_some_iff.1 h
      exact (absorbPendingTraced_of_absorbs? htexts).2.2
  | absorbEdits edits compilation cancel =>
      obtain ⟨texts, htexts, rfl⟩ := Option.map_eq_some_iff.1 h
      have hlast := (absorbPendingTraced_of_absorbs? htexts).2.2
      have hsame := congrArg Publication.lastRun
        (publication_foldl_enqueue s edits)
      rwa [show (edits.foldl enqueue s).lastRun = s.lastRun from hsame] at hlast
  | enqueue edit => contradiction
  | addTexts texts => contradiction
  | removeTexts paths => contradiction
  | replaceText old new => contradiction

end Session

theorem Compilation.eq_of_agrees {a b : Compilation} (h : a.agrees b = true) :
    a = b := by
  obtain ⟨ts⟩ := a
  obtain ⟨us⟩ := b
  rw [agrees, Bool.and_eq_true, beq_iff_eq] at h
  obtain ⟨hlength, hall⟩ := h
  refine congrArg Compilation.mk ?_
  induction ts generalizing us with
  | nil =>
      cases us with
      | nil => rfl
      | cons u us => simp at hlength
  | cons t ts ih =>
      cases us with
      | nil => simp at hlength
      | cons u us =>
          simp only [List.zip_cons_cons, List.all_cons, Bool.and_eq_true,
            beq_iff_eq, Tree.sameRoot] at hall
          obtain ⟨⟨⟨hid, hpath⟩, hroot⟩, hrest⟩ := hall
          obtain ⟨id, path, root⟩ := t
          obtain ⟨id', path', root'⟩ := u
          rw [show ts = us from ih us (by simpa using hlength) hrest]
          simp_all

namespace Session

variable [BEq U]

/--
The states that a session with these generators and options can get into by
operations that are `allowed`.  An operation that fails is no step.
-/
inductive Reached (allowed : Session U → Operation → Prop)
    (generators : List (Generator U)) (options : Options) : Session U → Prop
  | start : Reached allowed generators options { generators, options }
  | step {s s' : Session U} {o : Operation} :
      Reached allowed generators options s → allowed s o →
      (s.perform o).outcome = .ok s' → Reached allowed generators options s'

def anyOperation (_ : Session U) (_ : Operation) : Prop :=
  True

end Session

end Regen
