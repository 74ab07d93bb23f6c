/-!
Identities.  A graph is known by its number, a step by its number within the
graph.  A step may publish several tables, one per part; a table key names one
of them.  Keys are ordered by graph, then step, then part.
-/

namespace Regen

structure GraphId where
  index : Nat
  deriving DecidableEq, Repr

def GraphId.label (g : GraphId) : String :=
  "g" ++ toString g.index

structure StepId where
  index : Nat
  deriving DecidableEq, Repr

def StepId.label (s : StepId) : String :=
  "n" ++ toString s.index

/-- The tables a step may publish; `output` is the one other steps read. -/
inductive Part where
  | output
  | perTree
  | perInput
  | aliases
  | units
  | globalAliases
  | found
  deriving DecidableEq, Repr

namespace Part

def all : List Part :=
  [.output, .perTree, .perInput, .aliases, .units, .globalAliases, .found]

def rank : Part → Nat
  | .output => 0
  | .perTree => 1
  | .perInput => 2
  | .aliases => 3
  | .units => 4
  | .globalAliases => 5
  | .found => 6

def label : Part → String
  | .output => "Output"
  | .perTree => "PerTree"
  | .perInput => "PerInput"
  | .aliases => "Aliases"
  | .units => "Units"
  | .globalAliases => "GlobalAliases"
  | .found => "Matches"

def ofLabel? (s : String) : Option Part :=
  all.find? (·.label == s)

end Part

structure TableKey where
  graph : GraphId
  step : StepId
  part : Part
  deriving DecidableEq, Repr

namespace TableKey

def output (graph : GraphId) (step : StepId) : TableKey :=
  ⟨graph, step, .output⟩

def label (k : TableKey) : String :=
  k.graph.label ++ "/" ++ k.step.label ++ "/" ++ k.part.label

def le (a b : TableKey) : Bool :=
  a.graph.index < b.graph.index ||
    (a.graph == b.graph &&
      (a.step.index < b.step.index ||
        (a.step == b.step && a.part.rank ≤ b.part.rank)))

def sort (keys : List TableKey) : List TableKey :=
  keys.mergeSort le

theorem le_total (a b : TableKey) : (a.le b || b.le a) = true := by
  obtain ⟨⟨g⟩, ⟨s⟩, p⟩ := a
  obtain ⟨⟨g'⟩, ⟨s'⟩, p'⟩ := b
  simp only [le, Bool.or_eq_true, Bool.and_eq_true, decide_eq_true_eq,
    beq_iff_eq, GraphId.mk.injEq, StepId.mk.injEq]
  omega

theorem mem_sort {key : TableKey} {keys : List TableKey} :
    key ∈ sort keys ↔ key ∈ keys :=
  List.mem_mergeSort

end TableKey

end Regen
