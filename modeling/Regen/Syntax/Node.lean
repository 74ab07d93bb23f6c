import Regen.Syntax.Kind
import Regen.Syntax.Name

/-!
Syntax nodes: a small view of a parsed file that keeps declarations, the scopes
that hold using directives, and attribute lists.  An attribute list is a child
of the declaration it annotates.
-/

namespace Regen.Syntax

/-- `using X`, `using A = X.Y`, and their compilation-wide forms. -/
structure Using where
  isGlobal : Bool := false
  aliasName : Option String := none
  name : String
  deriving DecidableEq, Repr

namespace Using

def aliasPair? (u : Using) : Option (String × String) :=
  u.aliasName.map fun a => (a, unqualified u.name)

def written (u : Using) : String :=
  match u.aliasPair? with
  | some (a, target) => a ++ "=" ++ target
  | none => u.name

end Using

structure Attribute where
  name : String
  arguments : List String := []
  deriving DecidableEq, Repr

def Attribute.unqualifiedName (a : Attribute) : String :=
  unqualified a.name

structure Node where
  kind : Kind
  name : Option String := none
  usings : List Using := []
  attributes : List Attribute := []
  children : List Node := []
  deriving Repr

namespace Node

mutual

def decEq : (a b : Node) → Decidable (a = b)
  | ⟨k, n, us, as, cs⟩, ⟨k', n', us', as', cs'⟩ =>
      if hk : k = k' then
        if hn : n = n' then
          if hu : us = us' then
            if ha : as = as' then
              match decEqList cs cs' with
              | isTrue hc => isTrue (by rw [hk, hn, hu, ha, hc])
              | isFalse hc => isFalse (by simp [hc])
            else isFalse (by simp [ha])
          else isFalse (by simp [hu])
        else isFalse (by simp [hn])
      else isFalse (by simp [hk])

def decEqList : (as bs : List Node) → Decidable (as = bs)
  | [], [] => isTrue rfl
  | [], _ :: _ => isFalse (by simp)
  | _ :: _, [] => isFalse (by simp)
  | a :: as, b :: bs =>
      match decEq a b with
      | isTrue h =>
          match decEqList as bs with
          | isTrue hs => isTrue (by rw [h, hs])
          | isFalse hs => isFalse (by simp [hs])
      | isFalse h => isFalse (by simp [h])

end

instance : DecidableEq Node := decEq

def unit (usings : List Using) (members : List Node) : Node :=
  { kind := .compilationUnit, usings := usings, children := members }

def namespaceOf (name : String) (usings : List Using) (members : List Node) :
    Node :=
  { kind := .namespaceBlock, name := some name, usings := usings,
    children := members }

def declaration (kind : Kind) (name : String) : Node :=
  { kind := kind, name := some name }

def anonymous (kind : Kind) : Node :=
  { kind := kind }

def attributeList (attributes : List Attribute) : Node :=
  { kind := .attributeList, attributes := attributes }

def append (n : Node) (more : List Node) : Node :=
  { n with children := n.children ++ more }

def marked (n : Node) (names : List String) : Node :=
  n.append [attributeList (names.map fun name => { name := name })]

def findChild? (n : Node) (name : String) : Option Node :=
  n.children.find? (·.name == some name)

def childAttributes (n : Node) : List Attribute :=
  n.children.flatMap (·.attributes)

mutual

def preorder : Node → List Node
  | ⟨k, n, us, as, cs⟩ => ⟨k, n, us, as, cs⟩ :: preorderList cs

def preorderList : List Node → List Node
  | [] => []
  | c :: cs => preorder c ++ preorderList cs

end

theorem preorderList_eq (cs : List Node) :
    preorderList cs = cs.flatMap preorder := by
  induction cs with
  | nil => rfl
  | cons c cs ih => simp [preorderList, ih]

theorem preorder_eq (n : Node) :
    n.preorder = n :: n.children.flatMap preorder := by
  cases n
  simp [preorder, preorderList_eq]

end Node

end Regen.Syntax
