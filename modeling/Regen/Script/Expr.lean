import Regen.Script.Value

/-!
Expressions: the maps of scripted generators.  An expression computes a value
from the current one, `it`.
-/

namespace Regen.Script

open Syntax

inductive Query where
  | name
  | kind
  | treeId
  | path
  | content
  | digest
  | size
  | sum
  | upper
  | lines
  | children
  | attributes
  | arguments
  | usings
  deriving DecidableEq, Repr

inductive Pairing where
  | pair
  | coarse
  | source
  | component
  | remainder
  /-- The elements of the second value, shown, with the first in between. -/
  | join
  | child
  | equal
  deriving DecidableEq, Repr

inductive Expr where
  | it
  | null
  | int (n : Int)
  | str (s : String)
  | list (items : List Expr)
  | concat (items : List Expr)
  | query (f : Query) (e : Expr)
  | pairing (f : Pairing) (a b : Expr)
  | each (e body : Expr)
  | choice (condition yes no : Expr)
  deriving Repr

open Value

def sumOf (items : List Value) : Int :=
  items.foldl (fun total v => match v with | .int n => total + n | _ => total) 0

def strings (items : List String) : Value :=
  .list (items.map .str)

/-- The pieces between line feeds; an empty text has none. -/
def linesOf (s : String) : List String :=
  if s.isEmpty then [] else s.splitOn "\n"

def fromSyntax (f : Node → List Value) (v : Value) : Value :=
  .list ((v.syntax?.map f).getD [])

def Query.apply : Query → Value → Value
  | .name, v => ofOption .str (v.syntax?.bind (·.name))
  | .kind, v => ofOption (fun n => .str n.kind.name) v.syntax?
  | .treeId, v => ofOption (fun id => .int id.value) v.treeId?
  | .path, v => ofOption .str v.path?
  | .content, v => ofOption .str v.content?
  | .digest, .text t => .str t.digest.hex
  | .digest, _ => .null
  | .size, .str s => .int s.utf8ByteSize
  | .size, .list items => .int items.length
  | .size, _ => .int 0
  | .sum, .list items => .int (sumOf items)
  | .sum, _ => .int 0
  | .upper, v => .str v.shown.toUpper
  | .lines, v => strings (linesOf v.shown)
  | .children, v => fromSyntax (fun n => n.children.map .node) v
  | .attributes, v =>
      fromSyntax (fun n => n.childAttributes.map (.str ·.unqualifiedName)) v
  | .arguments, v =>
      fromSyntax (fun n => n.childAttributes.flatMap (·.arguments.map .str)) v
  | .usings, v => fromSyntax (fun n => n.usings.map (.str ·.written)) v

def Pairing.apply : Pairing → Value → Value → Value
  | .pair, a, b => .pair a b
  | .coarse, a, b => .coarse a b
  | .source, a, b => .source ⟨a.shown, b.shown⟩
  | .component, a, .int i => (a.component? i).getD .null
  | .component, _, _ => .null
  | .remainder, .int n, .int k => .int (n % k)
  | .remainder, _, _ => .null
  | .join, a, b => .str (a.shown.intercalate (b.elements.map shown))
  | .child, a, b => ofOption .node (a.syntax?.bind (·.findChild? b.shown))
  | .equal, a, b => .int (if a == b then 1 else 0)

namespace Expr

mutual

def eval (it : Value) : Expr → Value
  | .it => it
  | .null => .null
  | .int n => .int n
  | .str s => .str s
  | .list items => .list (evalAll it items)
  | .concat items => .str (String.join ((evalAll it items).map shown))
  | .query f e => f.apply (eval it e)
  | .pairing f a b => f.apply (eval it a) (eval it b)
  | .each e body => .list ((eval it e).elements.map fun v => eval v body)
  | .choice condition yes no =>
      if (eval it condition).isTrue then eval it yes else eval it no

def evalAll (it : Value) : List Expr → List Value
  | [] => []
  | e :: es => eval it e :: evalAll it es

end

end Expr

end Regen.Script
