import Regen.Sequence
import Regen.Syntax.Node

/-!
Syntax trees and compilations.  A tree is a parsed file with an identity that
stays the same while the file is edited; a compilation is a list of trees in
document order.
-/

namespace Regen.Syntax

structure TreeId where
  value : Nat
  deriving DecidableEq, Repr

def TreeId.label (id : TreeId) : String :=
  "tree#" ++ toString id.value

structure Tree where
  id : TreeId
  path : String
  root : Node
  deriving DecidableEq, Repr

namespace Tree

def setRoot (t : Tree) (root : Node) : Tree :=
  { t with root := root }

def sameRoot (a b : Tree) : Bool :=
  a.root == b.root

end Tree

end Regen.Syntax

namespace Regen

open Syntax

structure Compilation where
  trees : List Tree := []
  deriving DecidableEq, Repr

namespace Compilation

def tree? (c : Compilation) (id : TreeId) : Option Tree :=
  c.trees.find? (·.id == id)

/-- Swaps the tree of the same id for `t`, or appends `t`. -/
def insert (c : Compilation) (t : Tree) : Compilation :=
  ⟨upsert (·.id == t.id) t c.trees⟩

def erase (c : Compilation) (id : TreeId) : Compilation :=
  ⟨c.trees.filter (·.id != id)⟩

def agrees (a b : Compilation) : Bool :=
  a.trees.length == b.trees.length &&
    (a.trees.zip b.trees).all fun (x, y) =>
      x.id == y.id && x.path == y.path && x.sameRoot y

end Compilation

end Regen
