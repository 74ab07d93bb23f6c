import Regen.Run.Generator
import Regen.TextEdit

/-!
Sessions.  A session holds the generators, the auxiliary texts and the tables of
its last run; its operations give the next state and leave the old one as it is.
A full run evaluates every step.  Queued edits may instead be absorbed by a run
that evaluates only what reads texts, provided that the syntax trees are those
of the last run and that every edit fits.  When edits cannot be absorbed the
session keeps the reason until the next full run.
-/

namespace Regen

structure LastRun where
  result : RunResult
  compilation : Compilation
  texts : List TextFile

inductive Status where
  | clean
  | editsPending
  | editsFailed (failure : EditFailure)
  deriving DecidableEq, Repr

structure Session (U : Type) where
  generators : List (Generator U)
  options : Options := {}
  texts : List TextFile := []
  tables : Store (Carrier U) := {}
  pending : List TextEdit := []
  failure : Option EditFailure := none
  lastRun : Option LastRun := none
  revision : Revision := .zero

namespace Session

variable {U : Type}

def status (s : Session U) : Status :=
  match s.failure with
  | some failure => .editsFailed failure
  | none => if s.pending.isEmpty then .clean else .editsPending

def result? (s : Session U) : Option RunResult :=
  s.lastRun.map (·.result)

/-! ## Texts -/

def enqueue (s : Session U) (edit : TextEdit) : Session U :=
  { s with pending := s.pending ++ [edit] }

def addTexts (s : Session U) (texts : List TextFile) : Session U :=
  { s with
    texts := texts.foldl (fun all t => upsert (·.path == t.path) t all) s.texts }

def removeTexts (s : Session U) (paths : List String) : Session U :=
  { s with texts := s.texts.filter fun t => !paths.contains t.path }

def replaceText (s : Session U) (old new : TextFile) : Session U :=
  { s with texts := replaceFirst (·.same old) new s.texts }

/-! ## Runs -/

variable [BEq U]

def execute (s : Session U) (compilation : Compilation) (texts : List TextFile)
    (mode : Mode) : Traced (Session U) := do
  let r : RunContext U :=
    { options := s.options, mode := mode, previous := s.tables,
      trees := compilation.trees, texts := texts }
  let (tables, runs) ← r.runAll 0 s.generators {}
  let result : RunResult := ⟨s.revision.next, runs⟩
  Traced.record
    [.report (.runComplete mode result.revision result.sources.length)]
  return {
    generators := s.generators
    options := s.options
    texts := texts
    tables := tables
    lastRun := some ⟨result, compilation, texts⟩
    revision := result.revision }

def fail (s : Session U) (failure : EditFailure) : Traced (Session U) := do
  Traced.record [.report (.editsFailed failure s.pending.length)]
  return { s with failure := some failure }

/-- Absorbs the queued edits, given that the session has run on these trees. -/
def absorb (s : Session U) (last : LastRun) (compilation : Compilation) :
    Traced (Session U) :=
  if s.pending.isEmpty && sameList TextFile.same last.texts s.texts then
    return s
  else
    match TextEdit.applyAll? s.texts s.pending with
    | .ok texts => s.execute compilation texts .edits
    | .error failure => s.fail failure

def absorbPendingTraced (s : Session U) (compilation : Compilation) :
    Traced (Session U) :=
  match s.failure with
  | some _ => return s
  | none =>
      if s.options.incrementalEdits then
        match s.lastRun with
        | none => s.fail .noPriorRun
        | some last =>
            if last.compilation.agrees compilation then
              s.absorb last compilation
            else s.fail .treesChanged
      else s.fail .editsDisabled

def reportSkipped (skipped : List (TextEdit × EditFailure)) : Journal :=
  skipped.map fun (edit, failure) => .report (.skippedEdit edit.path failure)

def runTraced (s : Session U) (compilation : Compilation) :
    Traced (Session U) := do
  let (texts, skipped) := TextEdit.applyFitting s.texts s.pending
  Traced.record (reportSkipped skipped)
  s.execute compilation texts .full

/-- Evaluates every step; edits that do not fit are passed over. -/
def run (s : Session U) (compilation : Compilation)
    (cancel : Cancellation := .never) : Traced (Session U) :=
  (s.runTraced compilation).under cancel

/-- Absorbs the queued edits, or keeps the reason why that is not possible. -/
def absorbPending (s : Session U) (compilation : Compilation)
    (cancel : Cancellation := .never) : Traced (Session U) :=
  (s.absorbPendingTraced compilation).under cancel

def absorbEdits (s : Session U) (edits : List TextEdit) (compilation : Compilation)
    (cancel : Cancellation := .never) : Traced (Session U) :=
  (edits.foldl enqueue s).absorbPending compilation cancel

end Session

end Regen
