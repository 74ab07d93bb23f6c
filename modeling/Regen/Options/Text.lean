import Regen.Options.Basic
import Regen.Yaml.Node

/-!
Options written as YAML: a mapping of which every field may be left out.  Fields
that are not known are passed over; a known field must not come twice.  An empty
text stands for the empty mapping, and an empty value for the empty list.
-/

namespace Regen.Options

open Yaml (Node Style Tag)

def isEmptyScalar : Node → Bool
  | .scalar _ .plain text => text.isEmpty
  | _ => false

def boolOf? (text : String) : Option Bool :=
  if ["true", "True", "TRUE"].contains text then some true
  else if ["false", "False", "FALSE"].contains text then some false
  else none

def boolTag : Tag := .ofString "tag:yaml.org,2002:bool"

/-- A truth value is a plain scalar, or a literal one that is tagged so. -/
def readBool? : Node → Option Bool
  | .scalar _ .plain text => boolOf? text
  | .scalar p .literal text =>
      if p.tag = some boolTag then boolOf? text else none
  | _ => none

def isNullText (text : String) : Bool :=
  ["", "~", "null", "Null", "NULL"].contains text

/-- A kind of output is a scalar, or a local tag with a plain null behind it. -/
def readKind? : Node → Option OutputKind
  | .scalar p style text =>
      match p.tag.bind Tag.localName? with
      | some name =>
          if style = .plain && isNullText text then OutputKind.ofLabel? name
          else none
      | none => OutputKind.ofLabel? text
  | _ => none

def readKinds? (root : Node) (n : Node) : Option (List OutputKind) :=
  match n with
  | .sequence _ items => items.mapM fun item => readKind? (root.resolve item)
  | n => if isEmptyScalar n then some [] else none

structure Fields where
  trackSteps : Option Bool := none
  incrementalEdits : Option Bool := none
  disabledOutputs : Option (List OutputKind) := none

def once {α : Type} (field : Option α) (value : Option α) : Option (Option α) :=
  match field with
  | some _ => none
  | none => value.map some

def Fields.add (root : Node) (f : Fields) (entry : Node × Node) :
    Option Fields :=
  match root.resolve entry.1 with
  | .scalar _ _ name => do
      let value := root.resolve entry.2
      match name with
      | "track_incremental_steps" =>
          return { f with trackSteps := ← once f.trackSteps (readBool? value) }
      | "incremental_edits" =>
          return { f with
            incrementalEdits := ← once f.incrementalEdits (readBool? value) }
      | "disabled_outputs" =>
          return { f with
            disabledOutputs :=
              ← once f.disabledOutputs (readKinds? root value) }
      | _ => return f
  | _ => none

def Fields.toOptions (f : Fields) : Options :=
  { trackSteps := f.trackSteps.getD false
    incrementalEdits := f.incrementalEdits.getD true
    disabledOutputs := f.disabledOutputs.getD [] }

def ofNode? (root : Node) : Option Options :=
  match root with
  | .mapping _ entries =>
      (entries.foldlM (Fields.add root) {}).map (·.toOptions)
  | n => if isEmptyScalar n then some {} else none

/-- Reads options; `none` if the text is not YAML or does not describe any. -/
def ofText? (text : String) : Option Options := do
  match ← Yaml.document? text with
  | some root => ofNode? root
  | none => some {}

end Regen.Options
