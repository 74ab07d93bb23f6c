import Regen.DataType

/-!
The values that scripted maps compute with.  Two values are the same when they
have one form and the same parts, except that a coarse value is known by its key
alone: its payload may change without anybody downstream taking notice.
-/

namespace Regen.Script

open Syntax

inductive Value where
  | null
  | int (n : Int)
  | str (s : String)
  | list (items : List Value)
  | pair (left right : Value)
  | coarse (key payload : Value)
  | tree (t : Tree)
  | text (t : TextFile)
  | node (n : Node)
  | context (t : Tree) (n : Node)
  | marked (m : Marked)
  | source (g : Generated)
  deriving Repr

namespace Value

mutual

def same : Value → Value → Bool
  | .null, .null => true
  | .int a, .int b => a == b
  | .str a, .str b => a == b
  | .list as, .list bs => sameAll as bs
  | .pair a b, .pair c d => same a c && same b d
  | .coarse a _, .coarse b _ => same a b
  | .tree a, .tree b => a == b
  | .text a, .text b => a.same b
  | .node a, .node b => a == b
  | .context s a, .context t b => s == t && a == b
  | .marked a, .marked b => a == b
  | .source a, .source b => a == b
  | _, _ => false

def sameAll : List Value → List Value → Bool
  | [], [] => true
  | a :: as, b :: bs => same a b && sameAll as bs
  | _, _ => false

end

instance : BEq Value := ⟨same⟩

mutual

theorem same_refl : (v : Value) → same v v = true
  | .null => by simp [same]
  | .int _ => by simp [same]
  | .str _ => by simp [same]
  | .list items => by simp [same, sameAll_refl items]
  | .pair a b => by simp [same, same_refl a, same_refl b]
  | .coarse key _ => by simp [same, same_refl key]
  | .tree _ => by simp [same]
  | .text t => by simp [same, TextFile.same_refl t]
  | .node _ => by simp [same]
  | .context _ _ => by simp [same]
  | .marked _ => by simp [same]
  | .source _ => by simp [same]

theorem sameAll_refl : (vs : List Value) → sameAll vs vs = true
  | [] => by simp [sameAll]
  | v :: vs => by simp [sameAll, same_refl v, sameAll_refl vs]

end

instance : ReflBEq Value := ⟨fun {v} => same_refl v⟩

/-! ## Views -/

mutual

def shown : Value → String
  | .null => ""
  | .int n => toString n
  | .str s => s
  | .list items => ",".intercalate (shownAll items)
  | .pair a b => shown a ++ "|" ++ shown b
  | .coarse _ payload => shown payload
  | .tree t => t.path
  | .text t => t.content
  | .node n | .context _ n => n.name.getD ""
  | .marked m => m.node.name.getD ""
  | .source g => g.hint

def shownAll : List Value → List String
  | [] => []
  | v :: vs => shown v :: shownAll vs

end

def syntax? : Value → Option Node
  | .tree t => some t.root
  | .node n | .context _ n => some n
  | .marked m => some m.node
  | _ => none

def treeId? : Value → Option TreeId
  | .tree t | .context t _ => some t.id
  | .marked m => some m.tree
  | _ => none

def path? : Value → Option String
  | .tree t | .context t _ => some t.path
  | .text t => some t.path
  | _ => none

def content? : Value → Option String
  | .text t => some t.content
  | .source g => some g.text
  | _ => none

/-- A list as it is, nothing for `null`, and any other value on its own. -/
def elements : Value → List Value
  | .null => []
  | .list items => items
  | v => [v]

def component? : Value → Int → Option Value
  | .list items, i => if i < 0 then none else items[i.toNat]?
  | .pair a b, i | .coarse a b, i =>
      if i = 0 then some a else if i = 1 then some b else none
  | _, _ => none

/-- `null` and zero are false, everything else is true. -/
def isTrue : Value → Bool
  | .null => false
  | .int n => n != 0
  | _ => true

def ofOption {α : Type} (f : α → Value) : Option α → Value
  | some a => f a
  | none => .null

def toSource : Value → Generated
  | .source g => g
  | .pair a b => ⟨a.shown, b.shown⟩
  | v => ⟨v.shown, ""⟩

def ofCarrier : (type : DataType) → Carrier Value type → Value
  | .tree => fun (t : Tree) => .tree t
  | .text => fun (t : TextFile) => .text t
  | .marked => fun (m : Marked) => .marked m
  | .source => fun (g : Generated) => .source g
  | .value => fun (v : Value) => v
  | .list item => fun items => .list (items.map (ofCarrier item))
  | .pair left right => fun p => .pair (ofCarrier left p.1) (ofCarrier right p.2)
  | .aliases => fun (s : AliasSet) =>
      .list (s.pairs.map fun a => .pair (.str a.name) (.str a.target))
  | .node => fun (n : Node) => .node n
  | .scan => fun (s : Scan) => .list (s.nodes.map .node)
  | .perTree item => fun p => .pair (.int p.tree.value) (ofCarrier item p.item)

end Value

end Regen.Script
