import Regen.Proofs.Run.Carried
import Regen.Proofs.Table.Partition

/-!
# Tags that say what has changed

The tables that a step compares by place always carry the tags of a comparison
of their output with the table of the last run: when the step computed them,
when it reused old results, when none of its inputs had changed, and when it was
not run at all.
-/

namespace Regen

namespace Table

variable {α : Type} {eq : α → α → Bool}

/-- The entries are those of a comparison of the output with the old output. -/
def TaggedAgainst (eq : α → α → Bool) (old t : Table α) : Prop :=
  t = diff eq old t.values

variable (hrefl : ∀ a, eq a a = true)

include hrefl

private theorem taggedAgainst_diff (old : Table α) (candidates : List α) :
    TaggedAgainst eq old (diff eq old candidates) := by
  rw [TaggedAgainst, diff, diff]
  generalize old.values = olds
  refine congrArg Table.mk ?_
  induction candidates generalizing olds with
  | nil => rw [diffValues, values_map_ofRemoved, diffValues]
  | cons c cs ih =>
      cases olds with
      | nil => rw [diffValues_nil, values_map_ofAdded, diffValues_nil]
      | cons old olds =>
          have hpair : Entry.ofPair eq old (Entry.ofPair eq old c).value =
              Entry.ofPair eq old c := by
            rw [Entry.value_ofPair]
            by_cases heq : eq old c = true
            · simp [Entry.ofPair, heq, hrefl old]
            · simp [Entry.ofPair, heq]
          rw [values, live_diffValues_cons, List.map_cons, diffValues,
            diffValues, hpair]
          exact congrArg _ (ih olds)

private theorem taggedAgainst_settled (t : Table α) : TaggedAgainst eq t t.settled := by
  rw [TaggedAgainst, values_settled]
  exact (diff_of_forall₂ (List.forall₂_same.2 fun v _ => hrefl v)).symm

end Table

namespace Work

open Table

variable {β γ : Type} {idle : Bool} {eq : β → β → Bool}
  (hrefl : ∀ b, eq b b = true)

include hrefl

private theorem tagged_unlessIdle {old : Option (Table β)}
    {work : Table β → Work (Table β)}
    (hwork : ∀ t, TaggedAgainst eq t (work t).tables) :
    TaggedAgainst eq (old.getD .empty) (unlessIdle idle old work).tables := by
  cases old with
  | none => exact hwork _
  | some t =>
      cases idle with
      | false => exact hwork t
      | true => exact taggedAgainst_settled hrefl t

section

variable {other : Option (Table γ)} {old : Option (Table β)}

omit hrefl in
private theorem tables_unlessIdle₂ {P : Table γ × Table β → Prop}
    {work : Table γ → Table β → Work (Table γ × Table β)}
    (hidle : ∀ t u, other = some t → old = some u → P (t.settled, u.settled))
    (hwork : P (work (other.getD .empty) (old.getD .empty)).tables) :
    P (unlessIdle₂ idle other old work).tables := by
  cases other with
  | none => exact hwork
  | some t =>
      cases old with
      | none => exact hwork
      | some u =>
          cases idle with
          | false => exact hwork
          | true => exact hidle t u rfl rfl

private theorem tagged_unlessIdle₂_fst
    {work : Table β → Table γ → Work (Table β × Table γ)}
    (hwork : ∀ t u, TaggedAgainst eq t (work t u).tables.1) :
    TaggedAgainst eq (old.getD .empty)
      (unlessIdle₂ idle old other work).tables.1 := by
  refine tables_unlessIdle₂ (P := fun x =>
    TaggedAgainst eq (old.getD .empty) x.1) ?_ (hwork _ _)
  rintro t u rfl -
  exact taggedAgainst_settled hrefl t

private theorem tagged_unlessIdle₂_snd
    {work : Table γ → Table β → Work (Table γ × Table β)}
    (hwork : ∀ t u, TaggedAgainst eq u (work t u).tables.2) :
    TaggedAgainst eq (old.getD .empty)
      (unlessIdle₂ idle other old work).tables.2 := by
  refine tables_unlessIdle₂ (P := fun x =>
    TaggedAgainst eq (old.getD .empty) x.2) ?_ (hwork _ _)
  rintro t u - rfl
  exact taggedAgainst_settled hrefl u

end

end Work

namespace Step

open Carrier (same)
open Table Work

variable {U : Type} [BEq U]

/-- The tables that the step compares with the old ones place by place. -/
def ComparesByPlace (s : Step U) (part : Part) : Prop :=
  s ≠ .trees ∧ s ≠ .texts ∧
    (part = .output ∨ part = .perInput ∨ part = .globalAliases)

section Evaluate

variable {c : StepContext U} {s : Step U} {t : AnyTable (Carrier U)}
  (hrefl : ∀ a : Carrier U t.type, same t.type a a = true)

include hrefl

private theorem tagged_output (htrees : s ≠ .trees) (htexts : s ≠ .texts)
    (ht : (s.evaluate c).tables.lookup .output = some t) :
    TaggedAgainst (same t.type) ((c.old? t.type .output).getD .empty)
      t.table := by
  cases s with
  | trees => exact absurd rfl htrees
  | texts => exact absurd rfl htexts
  | filter input β accepts map =>
      obtain rfl := Option.some.inj ht
      exact tagged_unlessIdle₂_snd hrefl fun _ u => taggedAgainst_diff hrefl u _
  | selectMany input α β map =>
      obtain rfl := Option.some.inj ht
      exact tagged_unlessIdle₂_snd hrefl fun _ u => taggedAgainst_diff hrefl u _
  | combine left right α β =>
      obtain rfl := Option.some.inj ht
      refine tagged_unlessIdle hrefl fun t => ?_
      dsimp only
      split
      · exact taggedAgainst_diff hrefl t _
      · exact taggedAgainst_diff hrefl t _
  | _ =>
      obtain rfl := Option.some.inj ht
      exact tagged_unlessIdle hrefl fun t => taggedAgainst_diff hrefl t _

private theorem tagged_evaluate {part : Part} (hplace : s.ComparesByPlace part)
    (ht : (s.evaluate c).tables.lookup part = some t) :
    TaggedAgainst (same t.type) ((c.old? t.type part).getD .empty)
      t.table := by
  obtain ⟨htrees, htexts, rfl | rfl | rfl⟩ := hplace
  · exact tagged_output hrefl htrees htexts ht
  · cases s with
    | selectMany input α β map =>
        obtain rfl := Option.some.inj ht
        exact tagged_unlessIdle₂_fst hrefl fun t _ =>
          taggedAgainst_diff hrefl t _
    | _ => contradiction
  · cases s with
    | marked input marker shape =>
        obtain rfl := Option.some.inj ht
        exact tagged_unlessIdle hrefl fun t => taggedAgainst_diff hrefl t _
    | _ => contradiction

end Evaluate

end Step

namespace RunContext

open Carrier (same)

variable {U : Type} [BEq U] {r : RunContext U} {g : GraphId} {graph : Graph U}
  {tables : Store (Carrier U)}

theorem Solves.tagged (w : graph.WellFormed) (h : r.Solves g graph tables)
    {id : StepId} {s : GraphStep U} (hs : graph.step? id = some s)
    {part : Part} (hplace : s.step.ComparesByPlace part)
    {t : AnyTable (Carrier U)} (ht : tables.find? ⟨g, id, part⟩ = some t)
    (hrefl : ∀ a : Carrier U t.type, same t.type a a = true) :
    Table.TaggedAgainst (same t.type) (r.previous.read t.type ⟨g, id, part⟩)
      t.table := by
  rw [h.step hs, published] at ht
  split at ht
  · contradiction
  · split at ht
    · obtain ⟨⟨type, old⟩, hold, rfl⟩ := Option.map_eq_some_iff.1 ht
      rw [w.id_eq hs] at hold
      have hread : r.previous.read type ⟨g, id, part⟩ = old :=
        Store.read_of_find? hold
      change Table.TaggedAgainst (same type) (r.previous.read type _) _
      rw [hread]
      exact Table.taggedAgainst_settled hrefl old
    · rw [w.id_eq hs] at ht
      exact Step.tagged_evaluate hrefl hplace ht

end RunContext

end Regen
