import Regen.Key

/-!
What a step of a graph does, as far as one can tell without its functions, and
which steps it reads.
-/

namespace Regen

inductive OutputKind where
  | source
  | implementation
  deriving DecidableEq, Repr

namespace OutputKind

def all : List OutputKind :=
  [.source, .implementation]

def label : OutputKind → String
  | .source => "source"
  | .implementation => "implementation"

def ofLabel? (s : String) : Option OutputKind :=
  all.find? (·.label == s)

end OutputKind

inductive StepKind where
  | trees
  | texts
  | filter (input : StepId)
  | marked (input : StepId)
  | select (input : StepId)
  | selectValue (input : StepId)
  | selectMany (input : StepId)
  | collect (input : StepId)
  | combine (left right : StepId)
  | output (input : StepId) (kind : OutputKind)
  deriving DecidableEq, Repr

namespace StepKind

def inputs : StepKind → List StepId
  | .trees | .texts => []
  | .filter input | .marked input | .select input | .selectValue input
  | .selectMany input | .collect input | .output input _ => [input]
  | .combine left right => [left, right]

def label : StepKind → String
  | .trees => "syntax_trees"
  | .texts => "additional_texts"
  | .filter _ => "source_filter_transform"
  | .marked _ => "alias_selector"
  | .select _ => "select"
  | .selectValue _ => "select_value"
  | .selectMany _ => "select_many"
  | .collect _ => "collect"
  | .combine _ _ => "combine"
  | .output _ _ => "output"

def outputKind? : StepKind → Option OutputKind
  | .output _ kind => some kind
  | _ => none

end StepKind

end Regen
