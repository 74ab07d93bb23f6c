import Regen.Proofs.Run.Carried
import Regen.Proofs.Run.Walked

/-!
# How many values a step puts out

Most steps put out as many values as they read, or a single one.  Such a count
is a function of the counts of the inputs, and every run keeps it so: a step
that publishes an old table again does that only where its inputs are cached,
and a cached table has as many values as the one before it.
-/

namespace Regen

open Syntax

variable {U : Type}

namespace Step

def parts : Step U → List Part
  | .filter _ _ _ _ => [.output, .perTree]
  | .selectMany _ _ _ _ => [.output, .perInput]
  | .marked _ _ _ => [.output, .aliases, .units, .globalAliases, .found]
  | _ => [.output]

theorem partType_isSome_iff (s : Step U) (part : Part) :
    (s.partType part).isSome = true ↔ part ∈ s.parts := by
  cases s <;> cases part <;> simp [parts, partType]

/-- How many values a table of the step holds, if the inputs settle that. -/
def size? (sizeOf : StepId → Nat) : Step U → Part → Option Nat
  | .select input _ _ _, .output | .output input _, .output
  | .combine input _ _ _, .output => some (sizeOf input)
  | .selectMany input _ _ _, .perInput => some (sizeOf input)
  | .filter input _ _ _, .perTree => some (sizeOf input)
  | .marked input _ _, .aliases | .marked input _ _, .units
  | .marked input _ _, .found => some (sizeOf input)
  | .collect _ _, .output | .selectValue _ _ _ _, .output
  | .marked _ _ _, .globalAliases => some 1
  | _, _ => none

private theorem size?_congr {s : Step U} {sizeOf sizeOf' : StepId → Nat}
    (h : ∀ x ∈ s.reads, sizeOf x.1 = sizeOf' x.1) (part : Part) :
    s.size? sizeOf part = s.size? sizeOf' part := by
  cases s with
  | trees => rfl
  | texts => rfl
  | combine left right α β =>
      have hleft := h (left, .many, α) (by simp [reads])
      cases part <;> simp only [size?, hleft]
  | _ =>
      have hinput := h _ (List.mem_singleton_self _)
      cases part <;> simp only [size?, hinput]

theorem size?_of_one {s : Step U} {α : DataType}
    (h : s.promise? = some (.one, α)) (sizeOf : StepId → Nat) :
    s.size? sizeOf .output = some 1 := by
  cases s <;> simp_all [promise?, size?]

end Step

namespace Store

def size? (tables : Store (Carrier U)) (key : TableKey) : Option Nat :=
  (tables.find? key).map (·.table.values.length)

def size (tables : Store (Carrier U)) (key : TableKey) : Nat :=
  (tables.size? key).getD 0

theorem length_values_read {tables : Store (Carrier U)} {key : TableKey}
    {type : DataType} (h : ∀ t, tables.find? key = some t → t.type = type) :
    (tables.read type key).values.length = tables.size key := by
  rw [size, size?]
  cases hfind : tables.find? key with
  | none =>
      rw [read, at?, hfind]
      rfl
  | some t =>
      obtain ⟨type', t⟩ := t
      obtain rfl : type' = type := h _ hfind
      rw [read_of_find? hfind]
      rfl

private theorem size_settled {tables previous : Store (Carrier U)} {key : TableKey}
    (h : tables.find? key = (previous.find? key).map (·.settled)) :
    tables.size key = previous.size key := by
  rw [size, size?, h, Option.map_map, size, size?]
  refine congrArg (Option.getD · 0) (congrArg (Option.map · _) ?_)
  funext t
  exact congrArg List.length (Table.values_settled t.table)

def Counted (tables : Store (Carrier U)) (g : GraphId) (graph : Graph U) :
    Prop :=
  ∀ {id s}, graph.step? id = some s → ∀ part n,
    s.step.size? (fun input => tables.size (.output g input)) part = some n →
      ∀ t, tables.find? ⟨g, id, part⟩ = some t → t.table.values.length = n

end Store

namespace Plan

variable {α β : Type}

private theorem length_byPlace (same : α → α → Bool) (old : List (α × β))
    (input : Table α) :
    (byPlace same old input.live).length = input.values.length := by
  rw [← List.length_map, map_fst_byPlace, Table.values]

private theorem length_byTree (treeOf : α → TreeId) (usable : β → Bool)
    (old : List (PerTree β)) (input : Table α) :
    (byTree treeOf usable old input.live).length = input.values.length := by
  rw [byTree, List.length_map, Table.values, List.length_map]

end Plan

/-! ## One kind of work

A step that publishes an old table again has found nothing but cached inputs, so
of the old table one need only know that it fits those.
-/

namespace Work

variable {α β : Type} {site : Site} {sameIn : α → α → Bool}
  {sameOut : β → β → Bool} {oldInput input : Table α}

private theorem length_select {map : α → β} {old : Option (Table β)}
    (hold : input.isCached = true → ∀ t, old = some t →
      t.values.length = input.values.length) :
    (select site sameIn sameOut map oldInput input old).tables.values.length =
      input.values.length := by
  refine values_unlessIdle (P := (·.length = input.values.length))
    (fun t ht hcached => hold hcached t ht) ?_
  rw [Table.length_values_diff, Plan.length_results, Plan.length_byPlace]

private theorem length_selectValue {map : α → β} {old : Option (Table β)}
    (hold : input.isCached = true → ∀ t, old = some t →
      t.values.length = input.values.length) :
    (selectValue site sameOut map input old).tables.values.length =
      input.values.length := by
  refine values_unlessIdle (P := (·.length = input.values.length))
    (fun t ht hcached => hold hcached t ht) ?_
  rw [Table.length_values_diff, List.length_map]

private theorem length_groups {map : α → List β} {oldGroups : Option (Table (List β))}
    {old : Option (Table β)}
    (hold : input.isCached = true → ∀ t, oldGroups = some t →
      t.values.length = input.values.length) :
    (selectMany site sameIn sameOut map oldInput input oldGroups
      old).tables.1.values.length = input.values.length := by
  refine values_unlessIdle₂
    (P := fun groups _ => groups.length = input.values.length)
    (fun t _ ht _ hcached => hold hcached t ht) ?_
  rw [Table.length_values_diff, Plan.length_results, Plan.length_byPlace]

private theorem length_collect {old : Option (Table (List α))}
    (hold : input.isCached = true → ∀ t, old = some t → t.values.length = 1) :
    (collect sameIn input old).tables.values.length = 1 := by
  refine values_unlessIdle (P := (·.length = 1))
    (fun t ht hcached => hold hcached t ht) ?_
  rw [Table.length_values_diff]
  rfl

private theorem length_combine {right : Table β} {old : Option (Table (α × β))}
    (hright : right.values.length = 1)
    (hold : input.isCached = true → right.isCached = true →
      ∀ t, old = some t → t.values.length = input.values.length) :
    (combine sameIn sameOut oldInput input right old).tables.values.length =
      input.values.length := by
  refine values_unlessIdle (P := (·.length = input.values.length))
    (fun t ht hcached => ?_) ?_
  · rw [Bool.and_eq_true] at hcached
    exact hold hcached.1 hcached.2 t ht
  · split
    · next hnone =>
      -- one value on the right is enough for there to be a first
      rw [Table.single?, List.head?_eq_none_iff] at hnone
      rw [hnone] at hright
      contradiction
    · rw [Table.length_values_diff, Plan.length_results, Plan.length_byPlace]

private theorem length_output {old : Option (Table α)}
    (hold : input.isCached = true → ∀ t, old = some t →
      t.values.length = input.values.length) :
    (output sameIn input old).tables.values.length = input.values.length := by
  refine values_unlessIdle (P := (·.length = input.values.length))
    (fun t ht hcached => hold hcached t ht) ?_
  rw [Table.length_values_diff]

theorem length_items {accepts : Node → Bool} {map : Tree → Node → β}
    {trees : Table Tree} {oldItems : Option (Table (PerTree (List β)))}
    {old : Option (Table β)}
    (hold : trees.isCached = true → ∀ t, oldItems = some t →
      t.values.length = trees.values.length) :
    (filter site sameOut accepts map trees oldItems
      old).tables.1.values.length = trees.values.length := by
  refine values_unlessIdle₂
    (P := fun items _ => items.length = trees.values.length)
    (fun t _ ht _ hcached => hold hcached t ht) ?_
  rw [Table.length_values_diffOn, Plan.length_items, Plan.length_byTree]

end Work

/-! ## One step -/

namespace Step

variable [BEq U] {c : StepContext U} {s : Step U}

private theorem size_of_isCached
    (own : ∀ t, c.previous.find? (c.key .output) = some t → t.type = s.type)
    {t : AnyTable (Carrier U)}
    (h : (s.evaluate c).tables.lookup .output = some t)
    (hcached : t.table.isCached = true) :
    t.table.values.length = c.previous.size (c.key .output) := by
  rw [← Store.length_values_read own]
  cases s with
  | trees =>
      obtain rfl := Option.some.inj h
      exact Table.length_of_isCached_diffOn hcached
  | texts =>
      obtain rfl := Option.some.inj h
      exact Table.length_of_isCached_diffOn hcached
  | filter input β accepts map =>
      obtain rfl := Option.some.inj h
      exact congrArg List.length (Work.kept_filter hcached)
  | marked input marker shape =>
      obtain rfl := Option.some.inj h
      exact congrArg List.length (Work.kept_marked hcached)
  | select input α β map =>
      obtain rfl := Option.some.inj h
      exact congrArg List.length (Work.kept_select hcached)
  | selectValue input α β map =>
      obtain rfl := Option.some.inj h
      exact congrArg List.length (Work.kept_selectValue hcached)
  | selectMany input α β map =>
      obtain rfl := Option.some.inj h
      exact congrArg List.length (Work.kept_selectMany hcached)
  | collect input α =>
      obtain rfl := Option.some.inj h
      exact congrArg List.length (Work.kept_collect hcached)
  | combine left right α β =>
      obtain rfl := Option.some.inj h
      exact congrArg List.length (Work.kept_combine hcached)
  | output input kind =>
      obtain rfl := Option.some.inj h
      exact congrArg List.length (Work.kept_output hcached)

omit [BEq U] in
private theorem length_of_idle {sizeOf : StepId → Nat}
    {x : StepId × Cardinality × DataType} (hreads : s.reads = [x])
    (hsize : ∀ x ∈ s.reads, (c.read x.2.2 x.1).values.length = sizeOf x.1)
    (hidle : (∀ x ∈ s.reads, (c.read x.2.2 x.1).isCached = true) →
      ∀ part n, s.size? sizeOf part = some n → ∀ type t,
        c.old? type part = some t → t.values.length = n)
    {part : Part} (hn : s.size? sizeOf part = some (sizeOf x.1))
    (type : DataType) (hcached : (c.read x.2.2 x.1).isCached = true)
    (t : Table (Carrier U type)) (ht : c.old? type part = some t) :
    t.values.length = (c.read x.2.2 x.1).values.length := by
  rw [hreads] at hsize hidle
  rw [hsize x (List.mem_singleton_self x)]
  exact hidle (List.forall_mem_singleton.2 hcached) part _ hn type t ht

/-- Its tables have the sizes that those of its inputs settle. -/
theorem sized_evaluate {sizeOf : StepId → Nat}
    (hsize : ∀ x ∈ s.reads, (c.read x.2.2 x.1).values.length = sizeOf x.1)
    (hone : ∀ x ∈ s.reads, x.2.1 = .one → sizeOf x.1 = 1)
    (hidle : (∀ x ∈ s.reads, (c.read x.2.2 x.1).isCached = true) →
      ∀ part n, s.size? sizeOf part = some n → ∀ type t,
        c.old? type part = some t → t.values.length = n)
    (hglobals : ∀ input marker shape, s = .marked input marker shape →
      ∀ t, c.old? .aliases .globalAliases = some t → t.values.length = 1)
    {part : Part} {n : Nat} (hn : s.size? sizeOf part = some n)
    {t : AnyTable (Carrier U)}
    (h : (s.evaluate c).tables.lookup part = some t) :
    t.table.values.length = n := by
  cases s with
  | trees => cases part <;> contradiction
  | texts => cases part <;> contradiction
  | filter input β accepts map =>
      cases part with
      | perTree =>
          obtain rfl := Option.some.inj hn
          obtain rfl := Option.some.inj h
          have hin := hsize _ (List.mem_singleton_self _)
          exact (Work.length_items (length_of_idle rfl hsize hidle rfl
            (.perTree (.list β)))).trans hin
      | _ => contradiction
  | marked input marker shape =>
      have hin := hsize _ (List.mem_singleton_self _)
      have aligned := @Work.marked_aligned c.site marker shape
        (c.read .tree input) (oldMarkerTables c)
        (hglobals input marker shape rfl)
      cases part with
      | aliases =>
          obtain rfl := Option.some.inj hn
          obtain rfl := Option.some.inj h
          have hlength := congrArg List.length aligned.aliases
          rw [List.length_map, List.length_map] at hlength
          exact hlength.trans hin
      | units =>
          obtain rfl := Option.some.inj hn
          obtain rfl := Option.some.inj h
          have hlength := congrArg List.length aligned.units
          rw [List.length_map] at hlength
          exact hlength.trans hin
      | found =>
          obtain rfl := Option.some.inj hn
          obtain rfl := Option.some.inj h
          have hlength := congrArg List.length aligned.found
          rw [List.length_map, List.length_map] at hlength
          exact hlength.trans hin
      | globalAliases =>
          obtain rfl := Option.some.inj hn
          obtain rfl := Option.some.inj h
          exact aligned.globals
      | _ => contradiction
  | select input α β map =>
      cases part with
      | output =>
          obtain rfl := Option.some.inj hn
          obtain rfl := Option.some.inj h
          have hin := hsize _ (List.mem_singleton_self _)
          exact (Work.length_select
            (length_of_idle rfl hsize hidle rfl _)).trans hin
      | _ => contradiction
  | selectValue input α β map =>
      cases part with
      | output =>
          obtain rfl := Option.some.inj hn
          obtain rfl := Option.some.inj h
          have hin := (hsize _ (List.mem_singleton_self _)).trans
            (hone _ (List.mem_singleton_self _) rfl)
          refine (Work.length_selectValue fun hcached t ht => ?_).trans hin
          exact (hidle (by simpa [reads] using hcached) .output _ rfl _ t
            ht).trans hin.symm
      | _ => contradiction
  | selectMany input α β map =>
      cases part with
      | perInput =>
          obtain rfl := Option.some.inj hn
          obtain rfl := Option.some.inj h
          have hin := hsize _ (List.mem_singleton_self _)
          exact (Work.length_groups
            (length_of_idle rfl hsize hidle rfl (.list β))).trans hin
      | _ => contradiction
  | collect input α =>
      cases part with
      | output =>
          obtain rfl := Option.some.inj hn
          obtain rfl := Option.some.inj h
          refine Work.length_collect fun hcached t ht => ?_
          exact hidle (by simpa [reads] using hcached) .output _ rfl (.list α)
            t ht
      | _ => contradiction
  | combine left right α β =>
      cases part with
      | output =>
          obtain rfl := Option.some.inj hn
          obtain rfl := Option.some.inj h
          have hleft := hsize (left, .many, α) (by simp [reads])
          have hright := (hsize (right, .one, β) (by simp [reads])).trans
            (hone (right, .one, β) (by simp [reads]) rfl)
          refine (Work.length_combine hright
            fun hcached hcached' t ht => ?_).trans hleft
          have hall : ∀ x ∈ (Step.combine (U := U) left right α β).reads,
              (c.read x.2.2 x.1).isCached = true := by
            simpa [reads] using And.intro hcached hcached'
          exact (hidle hall .output _ rfl (.pair α β) t ht).trans hleft.symm
      | _ => contradiction
  | output input kind =>
      cases part with
      | output =>
          obtain rfl := Option.some.inj hn
          obtain rfl := Option.some.inj h
          have hin := hsize _ (List.mem_singleton_self _)
          exact (Work.length_output
            (length_of_idle rfl hsize hidle rfl _)).trans hin
      | _ => contradiction

end Step

/-! ## A whole graph -/

theorem Store.Typed.output {tables : Store (Carrier U)} {g : GraphId}
    {graph : Graph U} (h : tables.Typed g graph) {id : StepId}
    {s : GraphStep U} (hs : graph.step? id = some s)
    (t : AnyTable (Carrier U)) (ht : tables.find? (.output g id) = some t) :
    t.type = s.step.type := by
  have htype := h hs .output t ht
  rw [Step.partType_output] at htype
  exact (Option.some.inj htype).symm

namespace RunContext

variable [BEq U] {r : RunContext U} {g : GraphId} {graph : Graph U}
  {tables : Store (Carrier U)}

private theorem Solves.size_of_isCached (w : graph.WellFormed)
    (h : r.Solves g graph tables) (resumes : r.Resumes g graph) {id : StepId}
    {s : GraphStep U} (hs : graph.step? id = some s)
    (hout : r.options.disables s.kind = false)
    (hcached : (tables.read s.step.type (.output g id)).isCached = true) :
    tables.size (.output g id) = r.previous.size (.output g id) := by
  by_cases hkeeps : r.Keeps g s
  · exact Store.size_settled (h.find?_of_keeps w hs hout hkeeps .output)
  · have hfind := h.find?_of_runs w hs hout hkeeps .output
    have hshape := h.shaped_step w hs resumes .output
    rw [hout, if_neg (by simp), Step.partType_output] at hshape
    obtain ⟨⟨type, t⟩, ht, htype⟩ := Option.map_eq_some_iff.1 hshape
    obtain rfl : type = s.step.type := htype
    rw [show tables.read s.step.type (.output g id) = t from
      Store.read_of_find? ht] at hcached
    have hsame := Step.size_of_isCached (c := r.stepContext g id tables)
      (Store.Typed.output resumes.typed hs) (hfind.symm.trans ht) hcached
    rw [Store.size, Store.size?, show tables.find? (.output g id) = _ from ht]
    exact hsame

theorem Solves.counted (w : graph.WellFormed) (h : r.Solves g graph tables)
    (resumes : r.Resumes g graph) (hold : r.previous.Counted g graph) :
    tables.Counted g graph := by
  have typed : tables.Typed g graph :=
    Store.Shaped.typed (h.aligned w resumes).shaped
  rintro ⟨i⟩ s hs
  induction i using Nat.strongRecOn generalizing s with
  | _ i ih =>
      intro part n hn t ht
      have hshape := h.shaped_step w hs resumes part
      rw [ht] at hshape
      have hout : r.options.disables s.kind = false := by
        by_contra hleft
        rw [Bool.not_eq_false] at hleft
        rw [hleft] at hshape
        contradiction
      have inputs : ∀ x ∈ s.step.reads, ∃ u, graph.step? x.1 = some u ∧
          u.step.promise? = some x.2 ∧ r.options.disables u.kind = false := by
        intro x hx
        obtain ⟨u, hu, hpromise⟩ := w.promised hs x hx
        exact ⟨u, hu, hpromise, Step.disables_of_promise? hpromise⟩
      have settledBefore : (∀ x ∈ s.step.reads,
          tables.size (.output g x.1) = r.previous.size (.output g x.1)) →
          ∀ {part n}, s.step.size?
            (fun input => tables.size (.output g input)) part = some n →
          ∀ t, r.previous.find? ⟨g, ⟨i⟩, part⟩ = some t →
            t.table.values.length = n := by
        intro hsame part n hn t ht
        have hcongr : s.step.size? (fun input =>
              tables.size (.output g input)) part =
            s.step.size? (fun input => r.previous.size (.output g input)) part :=
          Step.size?_congr hsame part
        exact hold hs part n (hcongr.symm.trans hn) t ht
      by_cases hkeeps : r.Keeps g s
      · obtain ⟨texts, haligned⟩ := resumes.aligned hkeeps
        rw [h.find?_of_keeps w hs hout hkeeps] at ht
        obtain ⟨before, hbefore, rfl⟩ := Option.map_eq_some_iff.1 ht
        refine (congrArg List.length (Table.values_settled _)).trans ?_
        refine settledBefore (fun x hx => ?_) hn before hbefore
        obtain ⟨u, hu, hpromise, hkept⟩ :=
          Keeps.of_reads w haligned hs hkeeps hx
        exact Store.size_settled (h.find?_of_keeps w hu
          (Step.disables_of_promise? hpromise) hkept .output)
      · rw [h.find?_of_runs w hs hout hkeeps] at ht
        refine Step.sized_evaluate (c := r.stepContext g ⟨i⟩ tables)
          (fun x hx => ?_) (fun x hx hx' => ?_)
          (fun hcached part n hn type t ht => ?_)
          (fun input marker shape hstep t ht => ?_) hn ht
        · obtain ⟨u, hu, hpromise, -⟩ := inputs x hx
          have htype := Store.Typed.output typed hu
          rw [Step.type_of_promise? hpromise] at htype
          exact Store.length_values_read htype
        · obtain ⟨u, hu, hpromise, houtput⟩ := inputs x hx
          have hlt : x.1.index < i := w.earlier_of_reads hs hx
          have hshape := h.shaped_step w hu resumes .output
          rw [houtput, if_neg (by simp), Step.partType_output] at hshape
          obtain ⟨t, ht, -⟩ := Option.map_eq_some_iff.1 hshape
          have hone : u.step.promise? = some (.one, x.2.2) := by
            rw [hpromise, ← hx']
          have hlength := ih x.1.index hlt hu .output 1
            (Step.size?_of_one hone _) t ht
          rw [Store.size, Store.size?,
            show tables.find? (.output g x.1) = some t from ht]
          exact hlength
        · refine settledBefore (fun x hx => ?_) hn _ (Store.at?_eq_some.1 ht)
          obtain ⟨u, hu, hpromise, houtput⟩ := inputs x hx
          refine h.size_of_isCached w resumes hu houtput ?_
          rw [Step.type_of_promise? hpromise]
          exact hcached x hx
        · exact hold hs .globalAliases 1 (by rw [hstep]; rfl) _
            (Store.at?_eq_some.1 ht)

end RunContext

end Regen
