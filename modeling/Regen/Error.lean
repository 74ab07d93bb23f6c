import Regen.Key

/-!
Errors.  A graph error refuses a generator while it is put together; a run error
ends a run, which then publishes nothing.
-/

namespace Regen

inductive GraphError where
  | foreignHandle (step : StepId)
  | invalidMarker (name : String)
  deriving DecidableEq, Repr

def GraphError.message : GraphError → String
  | .foreignHandle step =>
      "Handle for node " ++ step.label ++ " was issued by another pipeline"
  | .invalidMarker name =>
      "Marker name is not a valid identifier: '" ++ name ++ "'"

inductive RunError where
  | cancelled
  | typeMismatch (key : TableKey)
  | duplicateHint (generator hint : String)
  deriving DecidableEq, Repr

def RunError.message : RunError → String
  | .cancelled => "Run cancelled"
  | .typeMismatch key =>
      "Table " ++ key.label ++ " holds a different value type than requested"
  | .duplicateHint generator hint =>
      "Generator '" ++ generator ++ "' produced hint name '" ++ hint ++
        "' more than once"

end Regen
