import Regen.Proofs.Graph.WellFormed
import Regen.Proofs.Store

/-!
# Steps on well-typed stores

Where every table has the type that its reader expects, running a step cannot
fail, and what it publishes is a function of the tables that it reads.
-/

namespace Regen

open Syntax

namespace StepContext

variable {U : Type}

def old? (c : StepContext U) (type : DataType) (part : Part) :
    Option (Table (Carrier U type)) :=
  c.previous.at? type (c.key part)

def read (c : StepContext U) (type : DataType) (step : StepId) :
    Table (Carrier U type) :=
  c.current.read type (.output c.site.graph step)

def oldRead (c : StepContext U) (type : DataType) (step : StepId) :
    Table (Carrier U type) :=
  c.previous.read type (.output c.site.graph step)

end StepContext

namespace Step

variable {U : Type}

def partType : Step U → Part → Option DataType
  | s, .output => some s.type
  | .filter _ β _ _, .perTree => some (.perTree (.list β))
  | .selectMany _ _ β _, .perInput => some (.list β)
  | .marked _ _ _, .aliases => some (.perTree .aliases)
  | .marked _ _ _, .units => some (.perTree .node)
  | .marked _ _ _, .globalAliases => some .aliases
  | .marked _ _ _, .found => some (.perTree .scan)
  | _, _ => none

@[simp] theorem partType_output (s : Step U) :
    s.partType .output = some s.type := by
  cases s <;> rfl

def oldMarkerTables (c : StepContext U) : OldMarkerTables where
  aliases := c.old? (.perTree .aliases) .aliases
  units := c.old? (.perTree .node) .units
  globals := c.old? .aliases .globalAliases
  found := c.old? (.perTree .scan) .found
  output := c.old? .marked .output

variable [BEq U]

open Carrier (same)

/-- What running the step comes to where all reads succeed. -/
def evaluate (c : StepContext U) : Step U → StepResult U
  | .trees => .ofOutput .tree (Work.trees c.trees (c.old? .tree .output))
  | .texts => .ofOutput .text (Work.texts c.texts (c.old? .text .output))
  | .filter input β accepts map =>
      .ofKept .perTree (.perTree (.list β)) β
        (Work.filter c.site (same β) accepts map (c.read .tree input)
          (c.old? (.perTree (.list β)) .perTree) (c.old? β .output))
  | .marked input marker shape =>
      .ofMarked (Work.marked c.site marker shape (c.read .tree input)
        (oldMarkerTables c))
  | .select input α β map =>
      .ofOutput β (Work.select c.site (same α) (same β) map
        (c.oldRead α input) (c.read α input) (c.old? β .output))
  | .selectValue input α β map =>
      .ofOutput β (Work.selectValue c.site (same β) map (c.read α input)
        (c.old? β .output))
  | .selectMany input α β map =>
      .ofKept .perInput (.list β) β
        (Work.selectMany c.site (same α) (same β) map (c.oldRead α input)
          (c.read α input) (c.old? (.list β) .perInput) (c.old? β .output))
  | .collect input α =>
      .ofOutput (.list α) (Work.collect (same α) (c.read α input)
        (c.old? (.list α) .output))
  | .combine left right α β =>
      .ofOutput (.pair α β) (Work.combine (same α) (same β) (c.oldRead α left)
        (c.read α left) (c.read β right) (c.old? (.pair α β) .output))
  | .output input _ =>
      .ofOutput .source (Work.output (same .source) (c.read .source input)
        (c.old? .source .output))

structure Readable (c : StepContext U) (s : Step U) : Prop where
  own : ∀ part t, c.previous.find? (c.key part) = some t →
    s.partType part = some t.type
  inputs : ∀ x ∈ s.reads, ∀ t,
    c.current.find? (.output c.site.graph x.1) = some t → t.type = x.2.2
  oldInputs : ∀ x ∈ s.reads, ∀ t,
    c.previous.find? (.output c.site.graph x.1) = some t → t.type = x.2.2

section

variable {c : StepContext U} {s : Step U}

omit [BEq U] in
theorem Readable.old (h : Readable c s) {type : DataType} (part : Part)
    (hpart : s.partType part = some type) :
    c.old type part = .ok (c.old? type part) :=
  Store.get_eq fun t ht => by simpa [hpart] using (h.own part t ht).symm

omit [BEq U] in
theorem Readable.input (h : Readable c s) {id : StepId} {card : Cardinality}
    {type : DataType} (hreads : (id, card, type) ∈ s.reads) :
    c.input type id = .ok (c.read type id) :=
  Store.getD_eq (h.inputs _ hreads)

omit [BEq U] in
theorem Readable.oldInput (h : Readable c s) {id : StepId} {card : Cardinality}
    {type : DataType} (hreads : (id, card, type) ∈ s.reads) :
    c.oldInput type id = .ok (c.oldRead type id) :=
  Store.getD_eq (h.oldInputs _ hreads)

theorem run_eq (h : Readable c s) : s.run c = .ok (s.evaluate c) := by
  have hout := h.old .output (partType_output s)
  cases s with
  | trees =>
      rw [run, show c.old .tree .output = _ from hout]
      rfl
  | texts =>
      rw [run, show c.old .text .output = _ from hout]
      rfl
  | filter input β accepts map =>
      rw [run, h.input (List.mem_singleton_self _),
        h.old .perTree rfl, show c.old β .output = _ from hout]
      rfl
  | marked input marker shape =>
      rw [run, h.input (List.mem_singleton_self _),
        h.old .aliases rfl, h.old .units rfl,
        h.old .globalAliases rfl, h.old .found rfl,
        show c.old .marked .output = _ from hout]
      rfl
  | select input α β map =>
      rw [run, h.input (List.mem_singleton_self _),
        show c.old β .output = _ from hout,
        h.oldInput (List.mem_singleton_self _)]
      rfl
  | selectValue input α β map =>
      rw [run, h.input (List.mem_singleton_self _),
        show c.old β .output = _ from hout]
      rfl
  | selectMany input α β map =>
      rw [run, h.input (List.mem_singleton_self _),
        h.old .perInput rfl, show c.old β .output = _ from hout,
        h.oldInput (List.mem_singleton_self _)]
      rfl
  | collect input α =>
      rw [run, h.input (List.mem_singleton_self _),
        show c.old (.list α) .output = _ from hout]
      rfl
  | combine left right α β =>
      have hleft : (left, Cardinality.many, α) ∈
          (Step.combine (U := U) left right α β).reads := by
        simp [reads]
      have hright : (right, Cardinality.one, β) ∈
          (Step.combine (U := U) left right α β).reads := by
        simp [reads]
      rw [run, h.input hleft, h.input hright,
        show c.old (.pair α β) .output = _ from hout, h.oldInput hleft]
      rfl
  | output input kind =>
      rw [run, h.input (List.mem_singleton_self _),
        show c.old .source .output = _ from hout]
      rfl

end

/-! ## The tables of a step -/

theorem type_lookup_evaluate (c : StepContext U) (s : Step U) (part : Part) :
    ((s.evaluate c).tables.lookup part).map (·.type) = s.partType part := by
  cases s <;> cases part <;> rfl

theorem nodup_evaluate (c : StepContext U) (s : Step U) :
    ((s.evaluate c).tables.map (·.1)).Nodup := by
  cases s <;> simp [evaluate, StepResult.ofOutput, StepResult.ofKept,
    StepResult.ofMarked]

/-- A step looks at nothing but the outputs of the steps that it reads. -/
theorem evaluate_congr {c : StepContext U} {s : Step U}
    (current : Store (Carrier U))
    (h : ∀ x ∈ s.reads, c.current.find? (.output c.site.graph x.1) =
      current.find? (.output c.site.graph x.1)) :
    s.evaluate c = s.evaluate { c with current := current } := by
  have hread : ∀ x ∈ s.reads, ∀ type, c.read type x.1 =
      StepContext.read { c with current := current } type x.1 :=
    fun x hx type => Store.read_congr (h x hx) type
  cases s with
  | trees => rfl
  | texts => rfl
  | combine left right α β =>
      have hleft := hread (left, .many, α) (by simp [reads]) α
      have hright := hread (right, .one, β) (by simp [reads]) β
      rw [evaluate, evaluate, ← hleft, ← hright]
      rfl
  | _ =>
      rw [evaluate, evaluate, ← hread _ (List.mem_singleton_self _)]
      rfl

end Step

end Regen
