import Regen.Graph.Builder
import Regen.Script.Expr
import Regen.Script.Predicate

/-!
Scripted generators: generators described by data.  A script lists the steps to
register; a step refers to the handles that steps before it were issued, in its
own script or in an earlier one.
-/

namespace Regen.Script

inductive Reference where
  | own (step : Nat)
  | earlier (script step : Nat)
  deriving DecidableEq, Repr

inductive Yield where
  | values
  | sources
  deriving DecidableEq, Repr

namespace Yield

def type : Yield → DataType
  | .values => .value
  | .sources => .source

def convert : (yield : Yield) → Value → Carrier Value yield.type
  | .values => fun v => v
  | .sources => Value.toSource

end Yield

inductive Declaration where
  | trees
  | texts
  | filter (accepts : Predicate) (map : Expr) (yield : Yield)
  | marked (marker : String) (shape : Shape)
  | select (input : Reference) (map : Expr) (yield : Yield)
  | selectMany (input : Reference) (map : Expr) (yield : Yield)
  | selectValue (input : Reference) (map : Expr)
  | collect (input : Reference)
  | combine (left right : Reference)
  | output (input : Reference) (kind : OutputKind)
  /-- No step of its own: the handle of another step once more. -/
  | again (input : Reference)
  deriving Repr

structure ScriptStep where
  declaration : Declaration
  name : Option String := none
  deriving Repr

structure GeneratorScript where
  name : String
  steps : List ScriptStep
  deriving Repr

inductive ScriptError where
  | graph (error : GraphError)
  | noHandle
  | unfit
  deriving DecidableEq, Repr

structure AnyHandle where
  cardinality : Cardinality
  type : DataType
  handle : Handle cardinality type

namespace AnyHandle

def many? : AnyHandle → Except ScriptError ((α : DataType) × Handle .many α)
  | ⟨.many, α, h⟩ => .ok ⟨α, h⟩
  | ⟨.one, _, _⟩ => .error .unfit

def one? : AnyHandle → Except ScriptError ((α : DataType) × Handle .one α)
  | ⟨.one, α, h⟩ => .ok ⟨α, h⟩
  | ⟨.many, _, _⟩ => .error .unfit

def sources? : AnyHandle → Except ScriptError (Handle .many .source)
  | ⟨.many, .source, h⟩ => .ok h
  | _ => .error .unfit

end AnyHandle

abbrev Issued := List (Option AnyHandle)

structure Handles where
  earlier : List Issued
  own : Issued

namespace Handles

def get (hs : Handles) : Reference → Except ScriptError AnyHandle
  | .own step => found (hs.own[step]?)
  | .earlier script step => found (hs.earlier[script]?.bind (·[step]?))
where
  found : Option (Option AnyHandle) → Except ScriptError AnyHandle
    | some (some h) => .ok h
    | _ => .error .noHandle

end Handles

abbrev Registered := Option AnyHandle × Builder Value

def issued {c : Cardinality} {α : DataType}
    (r : Handle c α × Builder Value) : Registered :=
  (some ⟨c, α, r.1⟩, r.2)

namespace Declaration

def register (hs : Handles) (b : Builder Value) :
    Declaration → Except ScriptError Registered
  | .trees => .ok (issued b.inputTrees)
  | .texts => .ok (issued b.inputTexts)
  | .filter accepts map yield =>
      .ok <| issued <| b.filter accepts.accepts fun t n =>
        yield.convert (map.eval (.context t n))
  | .marked marker shape => do
      let r ← (b.markedDeclarations marker shape).mapError .graph
      return issued r
  | .select input map yield => do
      let ⟨α, h⟩ ← (← hs.get input).many?
      return issued <| b.select h fun a =>
        yield.convert (map.eval (.ofCarrier α a))
  | .selectMany input map yield => do
      let ⟨α, h⟩ ← (← hs.get input).many?
      return issued <| b.selectMany h fun a =>
        (map.eval (.ofCarrier α a)).elements.map yield.convert
  | .selectValue input map => do
      let ⟨α, h⟩ ← (← hs.get input).one?
      return issued <| b.selectValue (β := .value) h fun a =>
        map.eval (.ofCarrier α a)
  | .collect input => do
      let ⟨_, h⟩ ← (← hs.get input).many?
      return issued (b.collect h)
  | .combine left right => do
      let ⟨_, l⟩ ← (← hs.get left).many?
      let ⟨_, r⟩ ← (← hs.get right).one?
      return issued (b.combine l r)
  | .output input kind => do
      let h ← (← hs.get input).sources?
      return (none, b.output kind h)
  | .again input => do
      return (some (← hs.get input), b)

end Declaration

namespace ScriptStep

def nameHandle (s : ScriptStep) (r : Registered) : Registered :=
  match r.1, s.name with
  | some h, some name => (some h, r.2.nameStep h.handle name)
  | _, _ => r

def register (s : ScriptStep) (hs : Handles) (b : Builder Value) :
    Except ScriptError Registered :=
  (s.declaration.register hs b).map s.nameHandle

end ScriptStep

structure Compiled where
  issued : Issued
  generator : Except ScriptError (Generator Value)

namespace GeneratorScript

def registerAll (earlier : List Issued) : List ScriptStep → Issued →
    Builder Value → Issued × Except ScriptError (Builder Value)
  | [], own, b => (own, .ok b)
  | s :: ss, own, b =>
      match s.register ⟨earlier, own⟩ b with
      | .ok (h, b) => registerAll earlier ss (own ++ [h]) b
      | .error e => (own, .error e)

/-- The scripts before this one determine the number of its builder. -/
def compile (earlier : List Issued) (s : GeneratorScript) : Compiled :=
  let (issued, b) := registerAll earlier s.steps [] { id := earlier.length }
  { issued := issued
    generator := do (← b).toGenerator s.name |>.mapError .graph }

/-- Compiles scripts in order; one that fails does not stop those after it. -/
def compileAll (earlier : List Issued) : List GeneratorScript → List Compiled
  | [] => []
  | s :: ss =>
      let c := s.compile earlier
      c :: compileAll (earlier ++ [c.issued]) ss

end GeneratorScript

end Regen.Script
