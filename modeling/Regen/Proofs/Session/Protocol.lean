import Regen.Proofs.Session.History

/-!
# The protocol of a session

A session goes through any list of operations; one that fails leaves its caller
with the state before it.  An operation publishes a run, or fails, or ends
quietly: it then touches nothing but the texts, the queue and the failure.  What
a session promises of its revision, its result and its status follows from
these three ways to end.
-/

namespace Regen

variable {U : Type}

def Operation.queued : Operation → List TextEdit
  | .enqueue edit => [edit]
  | .absorbEdits edits _ _ => edits
  | _ => []

def Operation.absorbsOver? : Operation → Option Compilation
  | .absorbPending compilation _ | .absorbEdits _ compilation _ =>
      some compilation
  | _ => none

def Operation.runsOver? : Operation → Option Compilation
  | .run compilation _ => some compilation
  | _ => none

private theorem Operation.runsOver?_eq_none {o : Operation} {compilation : Compilation}
    (h : o.absorbsOver? = some compilation) : o.runsOver? = none := by
  cases o with
  | run _ _ => contradiction
  | _ => rfl

def Action.completesRun : Action → Bool
  | .report (.runComplete _ _ _) => true
  | _ => false

private theorem TextEdit.applyAll?_eq_foldlM (texts : List TextFile)
    (edits : List TextEdit) :
    applyAll? texts edits =
      edits.foldlM (fun texts edit => edit.apply texts) texts := by
  induction edits generalizing texts with
  | nil => rfl
  | cons edit edits ih =>
      rw [applyAll?, List.foldlM_cons]
      cases edit.apply texts with
      | error failure => rfl
      | ok texts' => exact ih texts'

namespace Session

theorem absorbs?_eq_some {s : Session U} {compilation : Compilation}
    {texts : List TextFile} (h : s.absorbs? compilation = some texts) :
    s.failure = none ∧ s.options.incrementalEdits = true ∧
      TextEdit.applyAll? s.texts s.pending = .ok texts ∧
      ∃ last, s.lastRun = some last ∧ last.compilation = compilation ∧
        (s.pending ≠ [] ∨ ¬ SameTexts last.texts s.texts) := by
  unfold absorbs? at h
  split at h
  · contradiction
  · next hfailure =>
    split at h
    · next hoption =>
      split at h
      · contradiction
      · next last hlast =>
        split at h
        · next hagrees =>
          split at h
          · contradiction
          · next hchanged =>
            refine ⟨hfailure, hoption, ?_, last, hlast,
              Compilation.eq_of_agrees hagrees, ?_⟩
            · cases happly : TextEdit.applyAll? s.texts s.pending with
              | error failure =>
                  rw [happly] at h
                  contradiction
              | ok texts' =>
                  rw [happly] at h
                  rw [Option.some.inj h]
            · rwa [Bool.and_eq_true, not_and_or, List.isEmpty_iff,
                sameList_texts] at hchanged
        · contradiction
    · contradiction

variable [BEq U]

/-- The state in which the caller finds itself after an operation. -/
def after (s : Session U) (o : Operation) : Session U :=
  match (s.perform o).outcome with
  | .ok s' => s'
  | .error _ => s

def replay (s : Session U) (operations : List Operation) : Session U :=
  operations.foldl after s

/-- The operation succeeds, and reports that a run is complete. -/
def publishes (s : Session U) (o : Operation) : Bool :=
  (s.perform o).outcome.toOption.isSome &&
    (s.perform o).journal.any Action.completesRun

def published (s : Session U) : List Operation → Nat
  | [] => 0
  | o :: operations =>
      (if s.publishes o then 1 else 0) + published (s.after o) operations

section

variable {s s' : Session U} {o : Operation}

theorem after_of_ok (h : (s.perform o).outcome = .ok s') : s.after o = s' := by
  rw [after, h]

private theorem after_of_error {e : RunError} (h : (s.perform o).outcome = .error e) :
    s.after o = s := by
  rw [after, h]

theorem publishes_of_ok (h : (s.perform o).outcome = .ok s') :
    s.publishes o = (s.perform o).journal.any Action.completesRun := by
  rw [publishes, h]
  rfl

theorem publishes_of_error {e : RunError}
    (h : (s.perform o).outcome = .error e) : s.publishes o = false := by
  rw [publishes, h]
  rfl

end

section

variable {generators : List (Generator U)} {options : Options}

theorem Reached.after {s : Session U}
    (h : Reached anyOperation generators options s) (o : Operation) :
    Reached anyOperation generators options (s.after o) := by
  cases hok : (s.perform o).outcome with
  | ok s' =>
      rw [after_of_ok hok]
      exact .step h trivial hok
  | error e =>
      rw [after_of_error hok]
      exact h

theorem Reached.replay {s : Session U}
    (h : Reached anyOperation generators options s)
    (operations : List Operation) :
    Reached anyOperation generators options (s.replay operations) := by
  induction operations generalizing s with
  | nil => exact h
  | cons o operations ih => exact ih (h.after o)

end

/-- What an operation does that succeeds without a run. -/
inductive Quiet (s : Session U) : Operation → Session U → Prop
  | enqueue (edit : TextEdit) : Quiet s (.enqueue edit) (s.enqueue edit)
  | addTexts (texts : List TextFile) :
      Quiet s (.addTexts texts) (s.addTexts texts)
  | removeTexts (paths : List String) :
      Quiet s (.removeTexts paths) (s.removeTexts paths)
  | replaceText (old new : TextFile) :
      Quiet s (.replaceText old new) (s.replaceText old new)
  | idle {o : Operation} {compilation : Compilation}
      (h : o.absorbsOver? = some compilation) :
      Quiet s o { s with pending := s.pending ++ o.queued }
  | refused {o : Operation} {compilation : Compilation}
      (h : o.absorbsOver? = some compilation) (failure : EditFailure)
      (hfailure : s.failure = none) :
      Quiet s o
        { s with pending := s.pending ++ o.queued, failure := some failure }

/-- The three ways in which an operation ends. -/
inductive Ended (s : Session U) (o : Operation) : Prop
  | failed (e : RunError) (h : (s.perform o).outcome = .error e)
  | published {job : Job} (hjob : s.job? o = some job)
      (tables : Store (Carrier U)) (runs : List GeneratorRun)
      (h : (s.perform o).outcome = .ok (s.publish job tables runs))
      (hreports : (s.perform o).journal.any Action.completesRun = true)
  | quiet {s' : Session U} (hquiet : s.Quiet o s')
      (h : (s.perform o).outcome = .ok s')
      (hreports : (s.perform o).journal.any Action.completesRun = false)

private theorem completesRun_of_mem {j : Journal} {mode : Mode} {revision : Revision}
    {sources : Nat} (h : .report (.runComplete mode revision sources) ∈ j) :
    j.any Action.completesRun = true :=
  List.any_eq_true.2 ⟨_, h, rfl⟩

theorem perform_of_absorbsOver? {s : Session U} {o : Operation}
    {compilation : Compilation} (h : o.absorbsOver? = some compilation) :
    s.perform o = ((o.queued.foldl enqueue s).absorbPendingTraced
        compilation).under o.cancellation ∧
      s.job? o = ((o.queued.foldl enqueue s).absorbs? compilation).map
        (⟨.edits, compilation, ·⟩) := by
  cases o with
  | absorbPending compilation' cancel =>
      obtain rfl := Option.some.inj h
      exact ⟨rfl, rfl⟩
  | absorbEdits edits compilation' cancel =>
      obtain rfl := Option.some.inj h
      exact ⟨rfl, rfl⟩
  | enqueue edit => contradiction
  | addTexts texts => contradiction
  | removeTexts paths => contradiction
  | replaceText old new => contradiction
  | run compilation' cancel => contradiction

private theorem ended_of_absorbsOver? (s : Session U) {o : Operation}
    {compilation : Compilation} (h : o.absorbsOver? = some compilation) :
    s.Ended o := by
  obtain ⟨hperform, hjob⟩ := perform_of_absorbsOver? (s := s) h
  cases houtcome : (s.perform o).outcome with
  | error e => exact .failed e houtcome
  | ok s' =>
      rw [hperform] at houtcome
      have hsame := under_of_ok houtcome
      rw [hsame] at houtcome hperform
      have hqueue := foldl_enqueue s o.queued
      cases habsorbs : (o.queued.foldl enqueue s).absorbs? compilation with
      | some texts =>
          rw [habsorbs] at hjob
          rw [(absorbPendingTraced_of_absorbs? habsorbs).1,
            executeJob_congr (publication_foldl_enqueue s _)] at hperform houtcome
          obtain ⟨tables, runs, sources, rfl, hreports⟩ := executeJob_ok houtcome
          rw [← hperform] at houtcome hreports
          exact .published hjob tables runs houtcome
            (completesRun_of_mem hreports)
      | none =>
          clear houtcome
          rcases absorbPendingTraced_of_absorbs?_none habsorbs with
            hidle | ⟨hfailure, failure, hrefused⟩
          · rw [hidle, hqueue] at hperform
            refine .quiet (.idle h) ?_ ?_ <;> rw [hperform] <;> rfl
          · rw [hrefused, hqueue] at hperform
            rw [hqueue] at hfailure
            refine .quiet (.refused h failure hfailure) ?_ ?_ <;>
              rw [hperform] <;> rfl

private theorem ended_run (s : Session U) (compilation : Compilation)
    (cancel : Cancellation) : s.Ended (.run compilation cancel) := by
  cases houtcome : (s.perform (.run compilation cancel)).outcome with
  | error e => exact .failed e houtcome
  | ok s' =>
      have hperform : s.perform (.run compilation cancel) =
          s.runTraced compilation := under_of_ok houtcome
      have hrun := houtcome
      rw [hperform, outcome_runTraced] at hrun
      obtain ⟨tables, runs, sources, rfl, hreports⟩ := executeJob_ok hrun
      refine .published rfl tables runs houtcome ?_
      rw [hperform]
      exact completesRun_of_mem (List.mem_append_right _ hreports)

theorem ended (s : Session U) (o : Operation) : s.Ended o := by
  cases o with
  | enqueue edit => exact .quiet (.enqueue edit) rfl rfl
  | addTexts texts => exact .quiet (.addTexts texts) rfl rfl
  | removeTexts paths => exact .quiet (.removeTexts paths) rfl rfl
  | replaceText old new => exact .quiet (.replaceText old new) rfl rfl
  | run compilation cancel => exact s.ended_run compilation cancel
  | absorbPending compilation cancel => exact s.ended_of_absorbsOver? rfl
  | absorbEdits edits compilation cancel => exact s.ended_of_absorbsOver? rfl

/-! ## What is promised -/

structure Orderly (s : Session U) (runs : Nat) : Prop where
  revision : s.revision.count = runs
  result : s.result?.isSome = true ↔ 0 < s.revision.count
  latest : ∀ result, s.result? = some result → result.revision = s.revision
  clean : s.status = .clean → s.pending = []

structure Lawful (s : Session U) (o : Operation) : Prop where
  silent : o.runsOver? = none → o.absorbsOver? = none → s.publishes o = false
  ran : ∀ compilation s', o.runsOver? = some compilation →
    (s.perform o).outcome = .ok s' → s.publishes o = true
  unpublished : s.publishes o = false → (s.after o).publication = s.publication
  cleared : s.publishes o = true → (s.after o).status = .clean
  /-- Edits that are not absorbed stay in the queue. -/
  queued : ∀ compilation s', o.absorbsOver? = some compilation →
    s.publishes o = false → (s.perform o).outcome = .ok s' →
      s'.pending = s.pending ++ o.queued ∧ s'.texts = s.texts
  sticky : ∀ failure, s.status = .editsFailed failure →
    (s.publishes o = true → o.runsOver? = none) →
      (s.after o).status = .editsFailed failure
  /-- Edits are absorbed only if they all fit, and if there is a change. -/
  absorbed : ∀ compilation, o.absorbsOver? = some compilation →
    s.publishes o = true →
      s.failure = none ∧ s.options.incrementalEdits = true ∧
        (s.pending ++ o.queued).foldlM (fun texts edit => edit.apply texts)
          s.texts = .ok (s.after o).texts ∧
        ∃ last, s.lastRun = some last ∧ last.compilation = compilation ∧
          (s.pending ++ o.queued ≠ [] ∨ ¬ SameTexts last.texts s.texts)

omit [BEq U] in
private theorem status_eq_editsFailed_iff {s : Session U} {failure : EditFailure} :
    s.status = .editsFailed failure ↔ s.failure = some failure := by
  unfold status
  cases s.failure with
  | none => cases s.pending.isEmpty <;> simp
  | some failure' => simp

omit [BEq U] in
private theorem Quiet.publication_eq {s s' : Session U} {o : Operation}
    (h : s.Quiet o s') : s'.publication = s.publication := by
  cases h <;> rfl

omit [BEq U] in
private theorem Quiet.runsOver?_eq_none {s s' : Session U} {o : Operation}
    (h : s.Quiet o s') : o.runsOver? = none := by
  cases h with
  | idle h => exact Operation.runsOver?_eq_none h
  | refused h _ _ => exact Operation.runsOver?_eq_none h
  | _ => rfl

omit [BEq U] in
private theorem Quiet.queued {s s' : Session U} {o : Operation} (h : s.Quiet o s')
    {compilation : Compilation} (habsorbs : o.absorbsOver? = some compilation) :
    s'.pending = s.pending ++ o.queued ∧ s'.texts = s.texts := by
  cases h with
  | idle _ => exact ⟨rfl, rfl⟩
  | refused _ _ _ => exact ⟨rfl, rfl⟩
  | _ => contradiction

omit [BEq U] in
private theorem Quiet.sticky {s s' : Session U} {o : Operation} (h : s.Quiet o s')
    {failure : EditFailure} (hfailure : s.failure = some failure) :
    s'.failure = some failure := by
  cases h with
  | refused _ _ hnone =>
      rw [hfailure] at hnone
      contradiction
  | _ => exact hfailure

section

variable {s : Session U} {o : Operation}

theorem job?_of_publishes (h : s.publishes o = true) :
    ∃ job tables runs, s.job? o = some job ∧
      s.after o = s.publish job tables runs := by
  cases s.ended o with
  | failed e hend =>
      rw [publishes_of_error hend] at h
      contradiction
  | quiet hquiet hend hreports =>
      rw [publishes_of_ok hend, hreports] at h
      contradiction
  | published hjob tables runs hend hreports =>
      exact ⟨_, tables, runs, hjob, after_of_ok hend⟩

private theorem quiet_of_not_publishes (h : s.publishes o = false) :
    s.after o = s ∧ (∃ e, (s.perform o).outcome = .error e) ∨
      s.Quiet o (s.after o) := by
  cases s.ended o with
  | failed e hend => exact .inl ⟨after_of_error hend, e, hend⟩
  | quiet hquiet hend hreports =>
      rw [after_of_ok hend]
      exact .inr hquiet
  | published hjob tables runs hend hreports =>
      rw [publishes_of_ok hend, hreports] at h
      contradiction

private theorem not_publishes (hruns : o.runsOver? = none)
    (habsorbs : o.absorbsOver? = none) : s.publishes o = false := by
  cases o with
  | run compilation cancel => contradiction
  | absorbPending compilation cancel => contradiction
  | absorbEdits edits compilation cancel => contradiction
  | _ => rfl

private theorem publishes_of_run {compilation : Compilation} {s' : Session U}
    (hruns : o.runsOver? = some compilation)
    (hok : (s.perform o).outcome = .ok s') : s.publishes o = true := by
  cases hpublishes : s.publishes o with
  | true => rfl
  | false =>
      rcases quiet_of_not_publishes hpublishes with ⟨-, e, herror⟩ | hquiet
      · rw [herror] at hok
        contradiction
      · rw [hquiet.runsOver?_eq_none] at hruns
        contradiction

theorem publication_after (h : s.publishes o = false) :
    (s.after o).publication = s.publication := by
  rcases quiet_of_not_publishes h with ⟨hsame, -⟩ | hquiet
  · rw [hsame]
  · exact hquiet.publication_eq

private theorem status_after_of_publishes (h : s.publishes o = true) :
    (s.after o).status = .clean := by
  obtain ⟨job, tables, runs, -, hafter⟩ := job?_of_publishes h
  rw [hafter]
  rfl

private theorem absorbs?_of_publishes {compilation : Compilation}
    (habsorbs : o.absorbsOver? = some compilation)
    (h : s.publishes o = true) :
    ({ s with pending := s.pending ++ o.queued } : Session U).absorbs?
      compilation = some (s.after o).texts := by
  obtain ⟨job, tables, runs, hjob, hafter⟩ := job?_of_publishes h
  rw [(perform_of_absorbsOver? habsorbs).2, foldl_enqueue] at hjob
  obtain ⟨texts, htexts, rfl⟩ := Option.map_eq_some_iff.1 hjob
  rw [htexts, hafter]
  rfl

private theorem status_after_of_failure {failure : EditFailure}
    (hstatus : s.status = .editsFailed failure)
    (h : s.publishes o = true → o.runsOver? = none) :
    (s.after o).status = .editsFailed failure := by
  rw [status_eq_editsFailed_iff] at hstatus ⊢
  cases hpublishes : s.publishes o with
  | false =>
      rcases quiet_of_not_publishes hpublishes with ⟨hsame, -⟩ | hquiet
      · rw [hsame, hstatus]
      · exact hquiet.sticky hstatus
  | true =>
      cases habsorbs : o.absorbsOver? with
      | none =>
          rw [not_publishes (h hpublishes) habsorbs] at hpublishes
          contradiction
      | some compilation =>
          have htexts := absorbs?_of_publishes habsorbs hpublishes
          have hnone : s.failure = none := (absorbs?_eq_some htexts).1
          rw [hstatus] at hnone
          contradiction

end

private theorem lawful (s : Session U) (o : Operation) : s.Lawful o where
  silent := not_publishes
  ran _ _ := publishes_of_run
  unpublished := publication_after
  cleared := status_after_of_publishes
  queued := by
    intro compilation s' habsorbs hpublishes hok
    rcases quiet_of_not_publishes hpublishes with ⟨-, e, herror⟩ | hquiet
    · rw [herror] at hok
      contradiction
    · rw [after_of_ok hok] at hquiet
      exact hquiet.queued habsorbs
  sticky _ := status_after_of_failure
  absorbed := by
    intro compilation habsorbs hpublishes
    obtain ⟨hfailure, hoption, happly, hlast⟩ :=
      absorbs?_eq_some (absorbs?_of_publishes habsorbs hpublishes)
    rw [TextEdit.applyAll?_eq_foldlM] at happly
    exact ⟨hfailure, hoption, happly, hlast⟩

omit [BEq U] in
private theorem pending_of_clean {s : Session U} (h : s.status = .clean) :
    s.pending = [] := by
  unfold status at h
  split at h
  · contradiction
  · split at h
    · next hempty => exact List.isEmpty_iff.1 hempty
    · contradiction

theorem Orderly.after {s : Session U} {runs : Nat} (h : s.Orderly runs)
    (o : Operation) :
    (s.after o).Orderly (runs + if s.publishes o then 1 else 0) := by
  cases hpublishes : s.publishes o with
  | false =>
      have hsame := publication_after hpublishes
      have hrevision : (s.after o).revision = s.revision :=
        congrArg Publication.revision hsame
      have hresult : (s.after o).result? = s.result? :=
        congrArg (fun p => p.lastRun.map (·.result)) hsame
      refine ⟨?_, ?_, ?_, pending_of_clean⟩
      · rw [hrevision]
        exact h.revision
      · rw [hrevision, hresult]
        exact h.result
      · rw [hrevision, hresult]
        exact h.latest
  | true =>
      obtain ⟨job, tables, runs', -, hafter⟩ := job?_of_publishes hpublishes
      rw [hafter]
      refine ⟨?_, ?_, ?_, pending_of_clean⟩
      · exact congrArg (· + 1) h.revision
      · exact ⟨fun _ => Nat.succ_pos _, fun _ => rfl⟩
      · rintro result ⟨⟩
        rfl

theorem Orderly.replay {s : Session U} {runs : Nat} (h : s.Orderly runs)
    (operations : List Operation) :
    (s.replay operations).Orderly (runs + s.published operations) := by
  induction operations generalizing s runs with
  | nil => exact h
  | cons o operations ih =>
      rw [published, ← Nat.add_assoc]
      exact ih (h.after o)

omit [BEq U] in
private theorem start_orderly (generators : List (Generator U)) (options : Options) :
    Orderly ({ generators, options } : Session U) 0 where
  revision := rfl
  result := ⟨nofun, nofun⟩
  latest := nofun
  clean _ := rfl

/--
Whatever operations a new session has gone through, the revision counts the
published runs, the result is that of the last one, and any operation that
follows obeys the protocol.
-/
theorem replay_orderly (generators : List (Generator U)) (options : Options)
    (operations : List Operation) :
    let start : Session U := { generators, options }
    (start.replay operations).Orderly (start.published operations) ∧
      ∀ o, (start.replay operations).Lawful o := by
  intro start
  refine ⟨?_, fun o => lawful _ o⟩
  have horderly := (start_orderly generators options).replay operations
  rwa [Nat.zero_add] at horderly

end Session

end Regen
