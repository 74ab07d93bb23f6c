import Regen.Marker.Resolve

/-!
Scanning a file for the declarations that carry a marker.

A declaration is marked when an attribute in one of its own attribute lists
resolves to the marker.  The aliases in force are the global ones and the local
ones of the enclosing compilation units and namespaces, the declaration itself
included.  A marked declaration comes before the marked ones inside it, and what
lies inside an attribute list is not searched.
-/

namespace Regen

open Syntax

structure Scan where
  nodes : List Node := []
  consulted : List String := []
  deriving DecidableEq, Repr

namespace Scan

def append (a b : Scan) : Scan :=
  ⟨a.nodes ++ b.nodes, a.consulted ++ b.consulted⟩

instance : Append Scan := ⟨append⟩

@[simp] theorem nodes_append (a b : Scan) : (a ++ b).nodes = a.nodes ++ b.nodes :=
  rfl

@[simp] theorem consulted_append (a b : Scan) :
    (a ++ b).consulted = a.consulted ++ b.consulted := rfl

end Scan

def Syntax.Node.markerNames (n : Node) : List String :=
  (n.children.filter (·.kind == .attributeList)).flatMap fun list =>
    list.attributes.map (·.unqualifiedName)

def Scope.enter (s : Scope) (n : Node) : Scope :=
  if n.kind.opensScope then
    { s with locals := (Alias.locals n).reverse ++ s.locals }
  else s

namespace Marker

def scanOwner (m : Marker) (shape : Shape) (s : Scope) (n : Node) : Scan :=
  if shape.accepts n.kind then
    let r := Resolution.firstOf (m.resolveAttribute s) n.markerNames
    ⟨if r.found then [n] else [], r.consulted⟩
  else {}

mutual

def scanNode (m : Marker) (shape : Shape) (s : Scope) : Node → Scan
  | ⟨kind, name, usings, attributes, children⟩ =>
      let n : Node := ⟨kind, name, usings, attributes, children⟩
      if kind = .attributeList then {}
      else
        m.scanOwner shape (s.enter n) n ++
          scanNodes m shape (s.enter n) children

def scanNodes (m : Marker) (shape : Shape) (s : Scope) : List Node → Scan
  | [] => {}
  | n :: ns => scanNode m shape s n ++ scanNodes m shape s ns

end

def scanFile (m : Marker) (shape : Shape) (globals : AliasSet) (root : Node) :
    Scan :=
  let found := m.scanNode shape { globals := globals } root
  { found with consulted := Text.nameSet found.consulted }

mutual

/-- How many nodes a scan visits: attribute lists, but nothing inside them. -/
def visits : Node → Nat
  | ⟨kind, _, _, _, children⟩ =>
      if kind = .attributeList then 1 else 1 + visitsAll children

def visitsAll : List Node → Nat
  | [] => 0
  | n :: ns => visits n + visitsAll ns

end

end Marker

end Regen
