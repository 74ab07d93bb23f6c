import Regen.Proofs.Run.Lasting
import Regen.Proofs.Session.Protocol
import Regen.Proofs.Session.Published

/-!
# Two sessions side by side

Which run an operation comes to, and what becomes of the queue if it comes to
none, depends on the outlook of a session: the texts, the queue and what was run
on last, but neither the generators nor the tables.  Two sessions of the same
outlook decide alike.  So whatever relates two such sessions relates them
throughout a history, provided that runs keep it.
-/

namespace Regen

open RunContext

/-- The part of a session that decides what is to be done. -/
structure Outlook where
  texts : List TextFile
  pending : List TextEdit
  failure : Option EditFailure
  absorbs : Bool
  ranOn : Option (Compilation × List TextFile)

/--
What becomes of queued edits over a compilation.  If it is not nothing, they are
refused, or they are absorbed by a run over these texts.
-/
def Outlook.absorption (k : Outlook) (compilation : Compilation) :
    Option (Except EditFailure (List TextFile)) :=
  match k.failure with
  | some _ => none
  | none =>
      if k.absorbs then
        match k.ranOn with
        | none => some (.error .noPriorRun)
        | some (last, texts) =>
            if last.agrees compilation then
              if k.pending.isEmpty && sameList TextFile.same texts k.texts then
                none
              else some (TextEdit.applyAll? k.texts k.pending)
            else some (.error .treesChanged)
      else some (.error .editsDisabled)

variable {U : Type}

namespace Session

def outlook (s : Session U) : Outlook where
  texts := s.texts
  pending := s.pending
  failure := s.failure
  absorbs := s.options.incrementalEdits
  ranOn := s.lastRun.map fun last => (last.compilation, last.texts)

def holding (s : Session U) (texts : List TextFile) (pending : List TextEdit)
    (failure : Option EditFailure) : Session U :=
  { s with texts := texts, pending := pending, failure := failure }

private theorem outlook_foldl_enqueue (s : Session U) (edits : List TextEdit) :
    (edits.foldl enqueue s).outlook =
      { s.outlook with pending := s.outlook.pending ++ edits } := by
  rw [foldl_enqueue]
  rfl

private theorem absorbs?_eq (s : Session U) (compilation : Compilation) :
    s.absorbs? compilation =
      (s.outlook.absorption compilation).bind Except.toOption := by
  rw [absorbs?, Outlook.absorption, outlook]
  cases s.failure with
  | some failure => rfl
  | none =>
      cases s.options.incrementalEdits with
      | false => rfl
      | true =>
          cases s.lastRun with
          | none => rfl
          | some last =>
              simp only [if_true, Option.map_some]
              split
              · split <;> rfl
              · rfl

variable {s s' : Session U}

theorem outlook_holding (h : s'.outlook = s.outlook) (texts : List TextFile)
    (pending : List TextEdit) (failure : Option EditFailure) :
    (s'.holding texts pending failure).outlook =
      (s.holding texts pending failure).outlook := by
  simp only [outlook, Outlook.mk.injEq] at h
  simp [outlook, holding, h]

private theorem job?_congr (h : s'.outlook = s.outlook) (o : Operation) :
    s'.job? o = s.job? o := by
  cases o with
  | run compilation cancel =>
      have htexts : s'.texts = s.texts := congrArg Outlook.texts h
      have hpending : s'.pending = s.pending := congrArg Outlook.pending h
      rw [job?, job?, htexts, hpending]
  | absorbPending compilation cancel =>
      rw [job?, job?, absorbs?_eq, absorbs?_eq, h]
  | absorbEdits edits compilation cancel =>
      rw [job?, job?, absorbs?_eq, absorbs?_eq, outlook_foldl_enqueue,
        outlook_foldl_enqueue, h]
  | _ => rfl

theorem Follows.congr (h : s'.outlook = s.outlook) {job : Job}
    (follows : s.Follows job) : s'.Follows job := by
  intro hmode
  obtain ⟨last, hlast, hsame⟩ := follows hmode
  have hran : s'.lastRun.map (fun last => (last.compilation, last.texts)) =
      some (last.compilation, last.texts) := by
    rw [show s'.lastRun.map _ = s.lastRun.map _ from congrArg Outlook.ranOn h,
      hlast]
    rfl
  obtain ⟨last', hlast', hpair⟩ := Option.map_eq_some_iff.1 hran
  exact ⟨last', hlast', (Prod.mk.inj hpair).1.trans hsame⟩

variable [BEq U]

private theorem absorbPendingTraced_eq (s : Session U) (compilation : Compilation) :
    s.absorbPendingTraced compilation =
      match s.outlook.absorption compilation with
      | none => pure s
      | some (.error failure) => s.fail failure
      | some (.ok texts) => s.executeJob ⟨.edits, compilation, texts⟩ := by
  rw [absorbPendingTraced, Outlook.absorption, outlook]
  cases s.failure with
  | some failure => rfl
  | none =>
      cases s.options.incrementalEdits with
      | false => rfl
      | true =>
          cases s.lastRun with
          | none => rfl
          | some last =>
              simp only [if_true, Option.map_some, absorb]
              split
              · split
                · rfl
                · cases TextEdit.applyAll? s.texts s.pending <;> rfl
              · rfl

private theorem absorbPending_idle {compilation : Compilation}
    (h : s.outlook.absorption compilation = none) (cancel : Cancellation) :
    (s.absorbPending compilation cancel).outcome = .ok s := by
  rw [absorbPending, absorbPendingTraced_eq, h, Traced.under_of_no_beats rfl]
  rfl

private theorem absorbPending_refused {compilation : Compilation}
    {failure : EditFailure}
    (h : s.outlook.absorption compilation = some (.error failure))
    (cancel : Cancellation) :
    (s.absorbPending compilation cancel).outcome =
      .ok { s with failure := some failure } := by
  rw [absorbPending, absorbPendingTraced_eq, h, Traced.under_of_no_beats rfl]
  rfl

private theorem absorbEdits_of_absorbs?_none (h : s'.outlook = s.outlook)
    (edits : List TextEdit) {compilation : Compilation}
    (hnone : (edits.foldl enqueue s).absorbs? compilation = none)
    (cancel : Cancellation) : ∃ failure,
      (s.absorbEdits edits compilation cancel).outcome =
          .ok { edits.foldl enqueue s with failure := failure } ∧
        (s'.absorbEdits edits compilation cancel).outcome =
          .ok { edits.foldl enqueue s' with failure := failure } := by
  have hqueued : (edits.foldl enqueue s').outlook =
      (edits.foldl enqueue s).outlook := by
    rw [outlook_foldl_enqueue, outlook_foldl_enqueue, h]
  have hfailure : (edits.foldl enqueue s').failure =
      (edits.foldl enqueue s).failure := congrArg Outlook.failure hqueued
  rw [absorbs?_eq] at hnone
  cases habsorption :
      (edits.foldl enqueue s).outlook.absorption compilation with
  | none =>
      refine ⟨(edits.foldl enqueue s).failure,
        absorbPending_idle habsorption cancel, ?_⟩
      rw [← hfailure]
      exact absorbPending_idle (hqueued ▸ habsorption) cancel
  | some decision =>
      cases decision with
      | ok texts => simp [habsorption, Except.toOption] at hnone
      | error failure =>
          exact ⟨some failure, absorbPending_refused habsorption cancel,
            absorbPending_refused (hqueued ▸ habsorption) cancel⟩

theorem perform_of_job?_none (h : s'.outlook = s.outlook) {o : Operation}
    (hjob : s.job? o = none) : ∃ texts pending failure,
      (s.perform o).outcome = .ok (s.holding texts pending failure) ∧
      (s'.perform o).outcome = .ok (s'.holding texts pending failure) := by
  obtain ⟨generators, options, texts, tables, pending, failure, last, revision⟩
    := s
  obtain ⟨generators', options', texts', tables', pending', failure', last',
    revision'⟩ := s'
  have hparts := h
  simp only [outlook, Outlook.mk.injEq] at hparts
  obtain ⟨rfl, rfl, rfl, -, -⟩ := hparts
  cases o with
  | run compilation cancel => contradiction
  | absorbPending compilation cancel =>
      obtain ⟨failure, hs, hs'⟩ := absorbEdits_of_absorbs?_none h []
        (Option.map_eq_none_iff.1 hjob) cancel
      exact ⟨_, _, failure, hs, hs'⟩
  | absorbEdits edits compilation cancel =>
      obtain ⟨failure, hs, hs'⟩ := absorbEdits_of_absorbs?_none h edits
        (Option.map_eq_none_iff.1 hjob) cancel
      rw [foldl_enqueue] at hs hs'
      exact ⟨_, _, failure, hs, hs'⟩
  | _ => exact ⟨_, _, _, rfl, rfl⟩

private theorem perform_of_job? {o : Operation} {job : Job}
    (hjob : s.job? o = some job) : ∃ reports, Journal.beats reports = [] ∧
      s.perform o = Traced.under o.cancellation
        ⟨reports ++ (s.executeJob job).journal,
          (s.executeJob job).outcome⟩ := by
  cases o with
  | run compilation cancel =>
      obtain rfl := Option.some.inj hjob
      refine ⟨reportSkipped (TextEdit.applyFitting s.texts s.pending).2, ?_, rfl⟩
      rw [Journal.beats, reportSkipped, List.filterMap_map,
        List.filterMap_eq_nil_iff]
      exact fun _ _ => rfl
  | absorbPending compilation cancel =>
      obtain ⟨texts, htexts, rfl⟩ := Option.map_eq_some_iff.1 hjob
      refine ⟨[], rfl, ?_⟩
      change (s.absorbPendingTraced compilation).under cancel = _
      rw [(absorbPendingTraced_of_absorbs? htexts).1]
      rfl
  | absorbEdits edits compilation cancel =>
      obtain ⟨texts, htexts, rfl⟩ := Option.map_eq_some_iff.1 hjob
      refine ⟨[], rfl, ?_⟩
      change ((edits.foldl enqueue s).absorbPendingTraced compilation).under
        cancel = _
      rw [(absorbPendingTraced_of_absorbs? htexts).1,
        executeJob_congr (publication_foldl_enqueue s edits)]
      rfl
  | enqueue edit => contradiction
  | addTexts texts => contradiction
  | removeTexts paths => contradiction
  | replaceText old new => contradiction

private theorem perform_eq_ok_iff {o : Operation} {job : Job}
    (hjob : s.job? o = some job) {t : Session U} :
    (s.perform o).outcome = .ok t ↔
      o.cancellation.cut (s.executeJob job).journal = none ∧
        (s.executeJob job).outcome = .ok t := by
  obtain ⟨reports, hreports, hperform⟩ := perform_of_job? hjob
  have hbeats : Journal.beats (reports ++ (s.executeJob job).journal) =
      (s.executeJob job).journal.beats := by
    simp [hreports]
  rw [hperform, Traced.outcome_under_eq_ok_iff,
    Cancellation.cut_eq_none_congr hbeats]

def succeeds (s : Session U) : List Operation → Bool
  | [] => true
  | o :: operations =>
      (s.perform o).outcome.toOption.isSome && succeeds (s.after o) operations

/--
A relation of sessions that decide alike, kept by every run that succeeds on the
left if it can be cancelled in this way only.
-/
structure Abreast (allowed : Cancellation → Prop)
    (generators generators' : List (Generator U)) (options options' : Options)
    (R : Session U → Session U → Prop) : Prop where
  outlook : ∀ {s s'}, R s s' → s'.outlook = s.outlook
  holding : ∀ {s s'}, R s s' → ∀ texts pending failure,
    R (s.holding texts pending failure) (s'.holding texts pending failure)
  run : ∀ {s s' t job}, Reached anyOperation generators options s →
    Reached anyOperation generators' options' s' → R s s' → s.Follows job →
    (s.executeJob job).outcome = .ok t →
      (∃ t', (s'.executeJob job).outcome = .ok t' ∧ R t t') ∧
        ∀ c, allowed c → c.cut (s.executeJob job).journal = none →
          c.cut (s'.executeJob job).journal = none

namespace Abreast

variable {allowed : Cancellation → Prop}
  {generators generators' : List (Generator U)} {options options' : Options}
  {R : Session U → Session U → Prop}
  (abreast : Abreast allowed generators generators' options options' R)
  (reached : Reached anyOperation generators options s)
  (reached' : Reached anyOperation generators' options' s') (h : R s s')

include abreast reached reached' h

theorem perform {o : Operation} (hallowed : allowed o.cancellation)
    {t : Session U} (hok : (s.perform o).outcome = .ok t) :
    ∃ t', (s'.perform o).outcome = .ok t' ∧ R t t' := by
  have houtlook := abreast.outlook h
  cases hjob : s.job? o with
  | none =>
      obtain ⟨texts, pending, failure, hs, hs'⟩ :=
        perform_of_job?_none houtlook hjob
      obtain rfl := Except.ok.inj (hs.symm.trans hok)
      exact ⟨_, hs', abreast.holding h texts pending failure⟩
  | some job =>
      have hjob' := (job?_congr houtlook o).trans hjob
      obtain ⟨hcut, hrun⟩ := (perform_eq_ok_iff hjob).1 hok
      obtain ⟨⟨t', hrun', hrelated⟩, hcuts⟩ :=
        abreast.run reached reached' h (follows_of_job? hjob) hrun
      have hcut' := hcuts _ hallowed hcut
      exact ⟨t', (perform_eq_ok_iff hjob').2 ⟨hcut', hrun'⟩, hrelated⟩

theorem after {o : Operation} (hallowed : allowed o.cancellation)
    (hok : (s.perform o).outcome.toOption.isSome = true) :
    (s'.perform o).outcome.toOption.isSome = true ∧
      R (s.after o) (s'.after o) := by
  have ht := ok_of_isSome s hok
  obtain ⟨t', ht', hrelated⟩ := abreast.perform reached reached' h hallowed ht
  rw [after_of_ok ht, after_of_ok ht', ht']
  exact ⟨rfl, hrelated⟩

theorem replay {operations : List Operation}
    (hallowed : ∀ o ∈ operations, allowed o.cancellation)
    (hok : s.succeeds operations = true) :
    s'.succeeds operations = true ∧ ∀ before, before <+: operations →
      R (s.replay before) (s'.replay before) := by
  induction operations generalizing s s' with
  | nil =>
      refine ⟨rfl, fun before hbefore => ?_⟩
      obtain rfl := List.prefix_nil.1 hbefore
      exact h
  | cons o operations ih =>
      rw [List.forall_mem_cons] at hallowed
      rw [succeeds, Bool.and_eq_true] at hok
      obtain ⟨hfirst, hafter⟩ :=
        abreast.after reached reached' h hallowed.1 hok.1
      obtain ⟨hrest, hreplay⟩ := ih (reached.after o) (reached'.after o) hafter
        hallowed.2 hok.2
      refine ⟨by rw [succeeds, hfirst, hrest]; rfl, fun before hbefore => ?_⟩
      cases before with
      | nil => exact h
      | cons o' before =>
          obtain ⟨rfl, hearlier⟩ := List.cons_prefix_cons.1 hbefore
          exact hreplay before hearlier

end Abreast

end Session

end Regen
