import Regen.Graph.Builder
import Regen.Store
import Regen.Text.Quoted

/-!
Outlines: one line of text that shows a table, a store or a graph with all its
parts.  Records are written as `Name { field: value }`, lists in square brackets,
names in quotes.
-/

namespace Regen

namespace Outline

def commas (items : List String) : String :=
  ", ".intercalate items

def list (items : List String) : String :=
  "[" ++ commas items ++ "]"

def braces (name : String) (items : List String) : String :=
  name ++ " \x7b " ++ commas items ++ " \x7d"

def record (name : String) (fields : List (String × String)) : String :=
  if fields.isEmpty then name
  else braces name (fields.map fun (field, value) => field ++ ": " ++ value)

def wrapped (name item : String) : String :=
  name ++ "(" ++ item ++ ")"

def optional : Option String → String
  | some item => wrapped "Some" item
  | none => "None"

def bool (b : Bool) : String :=
  if b then "true" else "false"

end Outline

/-! ## Tables and stores -/

def Text.Digest.outline (d : Text.Digest) : String :=
  Outline.wrapped "ContentHash" d.brief

def GraphId.outline (g : GraphId) : String :=
  Outline.wrapped "GraphId" (toString g.index)

def StepId.outline (s : StepId) : String :=
  Outline.wrapped "NodeId" (toString s.index)

def TableKey.outline (k : TableKey) : String :=
  Outline.record "TableKey"
    [("graph", k.graph.outline), ("node", k.step.outline),
      ("part", k.part.label)]

def Provenance.outline : Provenance → String
  | .added => "Added"
  | .removed => "Removed"
  | .modified => "Modified"
  | .cached => "Cached"

def Table.outline {α : Type} (shown : α → String) (t : Table α) : String :=
  Outline.list <| t.entries.map fun e =>
    Outline.record "Entry"
      [("value", shown e.value), ("state", e.state.outline)]

namespace Store

variable {τ : Type} {C : τ → Type}

def outline (s : Store C) : String :=
  let counts := s.keys.filterMap fun key =>
    (s.states? key).map fun states =>
      key.outline ++ ": " ++ toString states.length
  "\x7b" ++ Outline.commas counts ++ "\x7d"

def stagedOutline (s : Store C) : String :=
  Outline.record "TableStoreBuilder" [("tables", toString s.tables.length)]

end Store

/-! ## Graphs -/

def OutputKind.outline : OutputKind → String
  | .source => "Source"
  | .implementation => "Implementation"

def StepKind.outline : StepKind → String
  | .trees => Outline.record "SyntaxTrees" []
  | .texts => Outline.record "AdditionalTexts" []
  | .filter input =>
      Outline.record "SourceFilterTransform" [("trees", input.outline)]
  | .marked input => Outline.record "AliasSelector" [("trees", input.outline)]
  | .select input => Outline.record "Select" [("input", input.outline)]
  | .selectValue input => Outline.record "SelectValue" [("input", input.outline)]
  | .selectMany input => Outline.record "SelectMany" [("input", input.outline)]
  | .collect input => Outline.record "Collect" [("input", input.outline)]
  | .combine left right =>
      Outline.record "Combine"
        [("left", left.outline), ("right", right.outline)]
  | .output input kind =>
      Outline.record "Output"
        [("input", input.outline), ("kind", kind.outline)]

def GraphStep.outline {U : Type} (s : GraphStep U) : String :=
  Outline.record "NodeDescriptor"
    [("id", s.id.outline), ("kind", s.kind.outline),
      ("name", Outline.optional (s.name.map Text.quoted)),
      ("depends_on_texts", Outline.bool s.readsTexts)]

def Graph.outline {U : Type} (g : Graph U) : String :=
  Outline.record "Pipeline"
    [("nodes", Outline.list (g.steps.map (·.outline))),
      ("outputs", Outline.list <| g.outputs.map fun (step, kind) =>
        Outline.wrapped "" (Outline.commas [step.outline, kind.outline]))]

def Generator.outline {U : Type} (g : Generator U) : String :=
  Outline.record "Generator"
    [("name", Text.quoted g.name), ("pipeline", g.graph.outline)]

def Handle.outline {c : Cardinality} {α : DataType} (h : Handle c α) : String :=
  let name :=
    match c with
    | .many => "ValuesHandle"
    | .one => "ValueHandle"
  Outline.record name [("node", h.step.outline)]

end Regen
