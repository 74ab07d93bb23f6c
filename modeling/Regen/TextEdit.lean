import Regen.Sequence
import Regen.TextFile

/-!
Queued edits of the auxiliary texts, and how a list of texts absorbs them in
the order of arrival.  An edit takes effect only where it fits what the list
holds.  `applyAll?` insists on that and reports the first edit that does not
fit; `applyFitting` passes over such edits and lists them.
-/

namespace Regen

inductive TextEdit where
  | add (text : TextFile)
  | remove (text : TextFile)
  | change (old new : TextFile)
  deriving DecidableEq, Repr

inductive EditFailure where
  | noPriorRun
  | editsDisabled
  | treesChanged
  | addedExisting (path : String)
  | removedUnknown (path : String)
  | changedUnknown (path : String)
  | staleChange (path : String)
  | pathMismatch (old new : String)
  deriving DecidableEq, Repr

def EditFailure.message : EditFailure → String
  | .noPriorRun => "No prior run to apply edits against"
  | .editsDisabled => "Incremental edit application is disabled"
  | .treesChanged => "Syntax trees changed since the last run"
  | .addedExisting path => "Added text '" ++ path ++ "' already exists"
  | .removedUnknown path => "Removed text '" ++ path ++ "' was never observed"
  | .changedUnknown path => "Changed text '" ++ path ++ "' was never observed"
  | .staleChange path =>
      "Changed text '" ++ path ++ "' does not match the observed content"
  | .pathMismatch old new =>
      "Change renames '" ++ old ++ "' to '" ++ new ++ "'"

namespace TextEdit

def path : TextEdit → String
  | .add text => text.path
  | .remove text => text.path
  | .change old _ => old.path

def textAt? (texts : List TextFile) (path : String) : Option TextFile :=
  texts.find? (·.path == path)

def apply (texts : List TextFile) : TextEdit → Except EditFailure (List TextFile)
  | .add text =>
      match textAt? texts text.path with
      | some _ => .error (.addedExisting text.path)
      | none => .ok (texts ++ [text])
  | .remove text =>
      match textAt? texts text.path with
      | some _ => .ok (texts.eraseP (·.path == text.path))
      | none => .error (.removedUnknown text.path)
  | .change old new =>
      if old.path ≠ new.path then .error (.pathMismatch old.path new.path)
      else
        match textAt? texts old.path with
        | none => .error (.changedUnknown old.path)
        | some current =>
            if current.same old then
              .ok (replaceFirst (·.path == old.path) new texts)
            else .error (.staleChange old.path)

/-- Every edit must fit; the first that does not is reported. -/
def applyAll? (texts : List TextFile) :
    List TextEdit → Except EditFailure (List TextFile)
  | [] => .ok texts
  | edit :: edits =>
      match edit.apply texts with
      | .ok texts' => applyAll? texts' edits
      | .error failure => .error failure

/-- The edits that fit take effect; the others are listed with their reasons. -/
def applyFitting (texts : List TextFile) :
    List TextEdit → List TextFile × List (TextEdit × EditFailure)
  | [] => (texts, [])
  | edit :: edits =>
      match edit.apply texts with
      | .ok texts' => applyFitting texts' edits
      | .error failure =>
          let (rest, skipped) := applyFitting texts edits
          (rest, (edit, failure) :: skipped)

theorem applyFitting_of_applyAll? {texts result : List TextFile}
    {edits : List TextEdit} (h : applyAll? texts edits = .ok result) :
    applyFitting texts edits = (result, []) := by
  induction edits generalizing texts with
  | nil => simp_all [applyAll?, applyFitting]
  | cons edit edits ih =>
      simp only [applyAll?, applyFitting] at h ⊢
      split at h
      · exact ih h
      · contradiction

end TextEdit

end Regen
