import Regen.Syntax.Node

/-!
Predicates on syntax nodes: the tests of scripted filters.
-/

namespace Regen.Script

open Syntax

inductive Predicate where
  | always
  | never
  | typeDeclaration
  | declaration
  | named
  | kind (kinds : List Kind)
  | name (name : String)
  | child (name : String)
  | attribute (name : String)
  | not (p : Predicate)
  | and (ps : List Predicate)
  | or (ps : List Predicate)
  deriving Repr

namespace Predicate

mutual

def accepts (n : Node) : Predicate → Bool
  | .always => true
  | .never => false
  | .typeDeclaration => n.kind.isType
  | .declaration => n.kind.isDeclaration
  | .named => n.name.isSome
  | .kind ks => ks.contains n.kind
  | .name s => n.name == some s
  | .child s => (n.findChild? s).isSome
  | .attribute s => n.childAttributes.any (·.unqualifiedName == s)
  | .not p => !accepts n p
  | .and ps => acceptsAll n ps
  | .or ps => acceptsSome n ps

def acceptsAll (n : Node) : List Predicate → Bool
  | [] => true
  | p :: ps => accepts n p && acceptsAll n ps

def acceptsSome (n : Node) : List Predicate → Bool
  | [] => false
  | p :: ps => accepts n p || acceptsSome n ps

end

end Predicate

end Regen.Script
