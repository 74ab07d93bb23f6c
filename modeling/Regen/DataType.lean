import Regen.Marker.Scan
import Regen.Syntax.Tree
import Regen.TextFile

/-!
The types of the values that tables hold.  Beside the inputs, the marked
declarations and the generated sources there is one type `U` for whatever the
maps of a generator compute; it comes with a comparison that need not be
structural.  `Carrier U` gives the type for a code, `Carrier.same` the comparison
that decides whether a recomputed value counts as unchanged.
-/

namespace Regen

open Syntax

structure Marked where
  tree : TreeId
  node : Node
  deriving DecidableEq, Repr

structure Generated where
  hint : String
  text : String
  deriving DecidableEq, Repr

structure PerTree (α : Type) where
  tree : TreeId
  item : α
  deriving DecidableEq, Repr

inductive DataType where
  | tree
  | text
  | marked
  | source
  | value
  | list (item : DataType)
  | pair (left right : DataType)
  | aliases
  | node
  | scan
  | perTree (item : DataType)
  deriving DecidableEq, Repr

abbrev Carrier (U : Type) : DataType → Type
  | .tree => Tree
  | .text => TextFile
  | .marked => Marked
  | .source => Generated
  | .value => U
  | .list item => List (Carrier U item)
  | .pair left right => Carrier U left × Carrier U right
  | .aliases => AliasSet
  | .node => Node
  | .scan => Scan
  | .perTree item => PerTree (Carrier U item)

def sameList {α : Type} (same : α → α → Bool) : List α → List α → Bool
  | [], [] => true
  | a :: as, b :: bs => same a b && sameList same as bs
  | _, _ => false

theorem sameList_refl {α : Type} {same : α → α → Bool}
    (h : ∀ a, same a a = true) (as : List α) : sameList same as as = true := by
  induction as with
  | nil => rfl
  | cons a as ih => simp [sameList, h a, ih]

namespace Carrier

variable {U : Type}

def same [BEq U] : (type : DataType) → Carrier U type → Carrier U type → Bool
  | .tree => fun (a b : Tree) => a == b
  | .text => TextFile.same
  | .marked => fun (a b : Marked) => a == b
  | .source => fun (a b : Generated) => a == b
  | .value => fun (a b : U) => a == b
  | .list item => sameList (same item)
  | .pair left right => fun a b => same left a.1 b.1 && same right a.2 b.2
  | .aliases => fun (a b : AliasSet) => a == b
  | .node => fun (a b : Node) => a == b
  | .scan => fun (a b : Scan) => a == b
  | .perTree item => fun a b => a.tree == b.tree && same item a.item b.item

theorem same_refl [BEq U] [ReflBEq U] :
    (type : DataType) → (a : Carrier U type) → same type a a = true
  | .tree, a | .marked, a | .source, a | .value, a | .aliases, a | .node, a
  | .scan, a => BEq.rfl (a := a)
  | .text, a => TextFile.same_refl a
  | .list item, as => sameList_refl (same_refl item) as
  | .pair left right, (a, b) => by
      simp [same, same_refl left a, same_refl right b]
  | .perTree item, ⟨tree, a⟩ => by
      simp [same, same_refl item a]

end Carrier

end Regen
