import Regen.Proofs.Alike
import Regen.Proofs.Run.Idle

/-!
# Reused results are the results of this run

What a step republishes or keeps from the last run relates to what it would
compute now.  Each lemma takes one kind of work, the tables that the work reads
and the tables of the last run, and says what the values of the new table are:
those of the plain function, up to the relation that the comparisons decide.
-/

namespace Regen

open List (Forall₂)
open Syntax

variable {α β γ : Type} {RA : α → α → Prop} {RB : β → β → Prop}
  {sameIn : α → α → Bool} {sameOut : β → β → Bool}

/-- How a table goes on from the table that the last run had in its place. -/
structure Continues (R : α → α → Prop) (old new : Table α) : Prop where
  old_self : ∀ a ∈ old.values, R a a
  self : ∀ a ∈ new.values, R a a
  kept : new.isCached = true → new.values = old.values

theorem Decides.values_diff (d : Decides RB sameOut) {previous : Table β}
    {candidates wanted : List β} (hold : ∀ b ∈ previous.values, RB b b)
    (h : Forall₂ RB candidates wanted) :
    Forall₂ RB (Table.diff sameOut previous candidates).values wanted :=
  Table.forall₂_values_diff h fun old ho _ _ hcw heq =>
    d.trans (d.of_same (hold old ho) (d.left hcw) heq) hcw

/-! ## Plans -/

namespace Plan

private theorem forall₂_results_byPlace {f : α → β} (d : Decides RA sameIn)
    (dOut : Decides RB sameOut) (hf : ∀ a b, RA a b → RB (f a) (f b))
    {inputs : List (Entry α)} (hself : ∀ e ∈ inputs, RA e.value e.value)
    {old : List (α × β)} (hold : ∀ x ∈ old, RA x.1 x.1 ∧ RB x.2 (f x.1)) :
    Forall₂ RB ((byPlace sameIn old inputs).results f)
      ((inputs.map (·.value)).map f) := by
  induction inputs generalizing old with
  | nil => exact .nil
  | cons e es ih =>
      have he := hself e (by simp)
      have hes : ∀ e ∈ es, RA e.value e.value := fun e h => hself e (by simp [h])
      cases old with
      | nil => exact .cons (hf _ _ he) (ih hes (by simp))
      | cons x old =>
          obtain ⟨a, b⟩ := x
          obtain ⟨ha, hb⟩ := hold (a, b) (by simp)
          refine .cons ?_ (ih hes fun x hx => hold x (by simp [hx]))
          cases hkeep : e.isCached && sameIn a e.value with
          | false => simpa [result, hkeep] using hf _ _ he
          | true =>
              have hsame := (Bool.and_eq_true _ _ ▸ hkeep).2
              have hab : RA a e.value := d.of_same ha he hsame
              simpa [result, hkeep] using dOut.trans hb (hf _ _ hab)

theorem itemOf?_some {P : α → β → Prop} {treeOf : α → TreeId}
    {items : List (PerTree β)} {as : List α}
    (h : Forall₂ (fun item a => item.tree = treeOf a ∧ P a item.item) items as)
    {tree : TreeId} {b : β} (hb : itemOf? items tree = some b) :
    ∃ a ∈ as, treeOf a = tree ∧ P a b := by
  obtain ⟨item, hfind, rfl⟩ := Option.map_eq_some_iff.1 hb
  have hmem : item ∈ items := by
    simpa using List.mem_of_find?_eq_some hfind
  have htree : item.tree = tree := by simpa using List.find?_some hfind
  clear hfind hb
  induction h with
  | nil => simp at hmem
  | @cons first a items as hfirst _ ih =>
      rcases List.mem_cons.1 hmem with rfl | hmem
      · exact ⟨a, by simp, hfirst.1.symm.trans htree, hfirst.2⟩
      · obtain ⟨a', ha', hrest⟩ := ih hmem
        exact ⟨a', by simp [ha'], hrest⟩

theorem forall₂_items_byTree {P : α → β → Prop} {treeOf : α → TreeId}
    {usable : β → Bool} {f : α → β} {old : List (PerTree β)}
    {inputs : List (Entry α)}
    (hkept : ∀ e ∈ inputs, e.isCached = true → ∀ b,
      itemOf? old (treeOf e.value) = some b → usable b = true → P e.value b)
    (hfresh : ∀ e ∈ inputs, P e.value (f e.value)) :
    Forall₂ (fun item a => item.tree = treeOf a ∧ P a item.item)
      ((byTree treeOf usable old inputs).items treeOf f)
      (inputs.map (·.value)) := by
  rw [items, byTree, List.map_map, List.forall₂_map_left_iff,
    List.forall₂_map_right_iff, List.forall₂_same]
  intro e he
  refine ⟨rfl, ?_⟩
  cases hkeep : (if e.isCached = true then
      (itemOf? old (treeOf e.value)).filter usable else none) with
  | none => simpa [result, hkeep] using hfresh e he
  | some b =>
      split at hkeep
      · next hcached =>
        obtain ⟨hb, husable⟩ := Option.filter_eq_some_iff.1 hkeep
        simpa [result, hkeep, hcached] using hkept e he hcached b hb husable
      · contradiction

end Plan

namespace Work

theorem self_getD {R : β → β → Prop} {old : Option (Table β)}
    (h : ∀ t, old = some t → ∀ b ∈ t.values, R b b) :
    ∀ b ∈ (old.getD .empty).values, R b b := by
  cases old with
  | none => simp
  | some t => exact h t rfl

/-! ## Maps -/

private theorem zip_old_of_forall₂ {f : α → β} {as : List α} {bs : List β}
    (hself : ∀ a ∈ as, RA a a) (h : Forall₂ RB bs (as.map f)) :
    ∀ x ∈ as.zip bs, RA x.1 x.1 ∧ RB x.2 (f x.1) := by
  induction as generalizing bs with
  | nil => simp
  | cons a as ih =>
      cases h with
      | cons hb hbs =>
          rintro x (_ | ⟨_, hx⟩)
          · exact ⟨hself a (by simp), hb⟩
          · exact ih (fun a ha => hself a (by simp [ha])) hbs x hx

private theorem zip_old {f : α → β} {oldInput : Table α} {old : Option (Table β)}
    (hself : ∀ a ∈ oldInput.values, RA a a)
    (h : ∀ t, old = some t → Forall₂ RB t.values (oldInput.values.map f)) :
    ∀ x ∈ oldInput.values.zip (old.getD .empty).values,
      RA x.1 x.1 ∧ RB x.2 (f x.1) := by
  cases old with
  | none => simp
  | some t => exact zip_old_of_forall₂ hself (h t rfl)

private theorem self_live {input : Table α} (h : ∀ a ∈ input.values, RA a a) :
    ∀ e ∈ input.live, RA e.value e.value :=
  fun _ he => h _ (List.mem_map_of_mem he)

section Maps

variable {site : Site} {oldInput input : Table α}

theorem values_select {map : α → β} {old : Option (Table β)}
    (d : Decides RA sameIn) (dOut : Decides RB sameOut)
    (hmap : ∀ a b, RA a b → RB (map a) (map b))
    (hin : Continues RA oldInput input)
    (hold : ∀ t, old = some t →
      Forall₂ RB t.values (oldInput.values.map map)) :
    Forall₂ RB
      (select site sameIn sameOut map oldInput input old).tables.values
      (input.values.map map) := by
  refine values_unlessIdle (P := (Forall₂ RB · (input.values.map map)))
    (fun t ht hidle => ?_) ?_
  · rw [hin.kept hidle]
    exact hold t ht
  · have hself := self_getD fun t ht => dOut.self_of_mem (hold t ht)
    exact dOut.values_diff hself (Plan.forall₂_results_byPlace d dOut hmap
      (self_live hin.self) (zip_old hin.old_self hold))

theorem kept_select {map : α → β} {old : Option (Table β)}
    (h : (select site sameIn sameOut map oldInput input old).tables.isCached
      = true) :
    (select site sameIn sameOut map oldInput input old).tables.values =
      (old.getD .empty).values :=
  kept_unlessIdle (fun _ => Table.values_diff_of_isCached) h

theorem values_selectValue {map : α → β} {old : Option (Table β)}
    (dOut : Decides RB sameOut) (hmap : ∀ a b, RA a b → RB (map a) (map b))
    (hin : Continues RA oldInput input)
    (hold : ∀ t, old = some t →
      Forall₂ RB t.values (oldInput.values.map map)) :
    Forall₂ RB (selectValue site sameOut map input old).tables.values
      (input.values.map map) := by
  refine values_unlessIdle (P := (Forall₂ RB · (input.values.map map)))
    (fun t ht hidle => ?_) ?_
  · rw [hin.kept hidle]
    exact hold t ht
  · have hself := self_getD fun t ht => dOut.self_of_mem (hold t ht)
    exact dOut.values_diff hself
      (List.rel_map (fun _ _ h => hmap _ _ h) (List.forall₂_same.2 hin.self))

theorem kept_selectValue {map : α → β} {old : Option (Table β)}
    (h : (selectValue site sameOut map input old).tables.isCached = true) :
    (selectValue site sameOut map input old).tables.values =
      (old.getD .empty).values :=
  kept_unlessIdle (fun _ => Table.values_diff_of_isCached) h

theorem values_selectMany {map : α → List β}
    {oldGroups : Option (Table (List β))} {old : Option (Table β)}
    (d : Decides RA sameIn) (dOut : Decides RB sameOut)
    (hmap : ∀ a b, RA a b → Forall₂ RB (map a) (map b))
    (hin : Continues RA oldInput input)
    (hgroups : ∀ t, oldGroups = some t →
      Forall₂ (Forall₂ RB) t.values (oldInput.values.map map))
    (hold : ∀ t, old = some t →
      Forall₂ RB t.values (oldInput.values.flatMap map)) :
    let new := selectMany site sameIn sameOut map oldInput input oldGroups old
    Forall₂ (Forall₂ RB) new.tables.1.values (input.values.map map) ∧
      Forall₂ RB new.tables.2.values (input.values.flatMap map) := by
  refine values_unlessIdle₂ (P := fun groups values =>
      Forall₂ (Forall₂ RB) groups (input.values.map map) ∧
        Forall₂ RB values (input.values.flatMap map))
    (fun t₁ t₂ ht₁ ht₂ hidle => ?_) ?_
  · rw [hin.kept hidle]
    exact ⟨hgroups t₁ ht₁, hold t₂ ht₂⟩
  · have hself := self_getD fun t ht => dOut.list.self_of_mem (hgroups t ht)
    have hself' := self_getD fun t ht => dOut.self_of_mem (hold t ht)
    have groups := dOut.list.values_diff hself
      (Plan.forall₂_results_byPlace d dOut.list hmap (self_live hin.self)
        (zip_old hin.old_self hgroups))
    refine ⟨groups, dOut.values_diff hself' ?_⟩
    rw [List.flatMap_def]
    exact List.rel_flatten groups

theorem kept_selectMany {map : α → List β}
    {oldGroups : Option (Table (List β))} {old : Option (Table β)}
    (h : (selectMany site sameIn sameOut map oldInput input oldGroups
      old).tables.2.isCached = true) :
    (selectMany site sameIn sameOut map oldInput input oldGroups
      old).tables.2.values = (old.getD .empty).values :=
  kept_unlessIdle₂ (fun _ _ => Table.values_diff_of_isCached) h

end Maps

/-! ## Aggregates -/

theorem values_collect {oldInput input : Table α}
    {old : Option (Table (List α))} (d : Decides RA sameIn)
    (hin : Continues RA oldInput input)
    (hold : ∀ t, old = some t →
      Forall₂ (Forall₂ RA) t.values [oldInput.values]) :
    Forall₂ (Forall₂ RA) (collect sameIn input old).tables.values
      [input.values] := by
  refine values_unlessIdle (P := (Forall₂ (Forall₂ RA) · [input.values]))
    (fun t ht hidle => ?_) ?_
  · rw [hin.kept hidle]
    exact hold t ht
  · have hself := self_getD fun t ht => d.list.self_of_mem (hold t ht)
    exact d.list.values_diff hself
      (.cons (List.forall₂_same.2 hin.self) .nil)

theorem kept_collect {input : Table α} {old : Option (Table (List α))}
    (h : (collect sameIn input old).tables.isCached = true) :
    (collect sameIn input old).tables.values = (old.getD .empty).values :=
  kept_unlessIdle (fun _ => Table.values_diff_of_isCached) h

/-- Each value on the left with the first value on the right, if any. -/
def pairs (as : List α) (bs : List β) : List (α × β) :=
  match bs.head? with
  | none => []
  | some b => as.map fun a => (a, b)

theorem forall₂_pairs {as as' : List α} {bs bs' : List β}
    (ha : Forall₂ RA as as') (hb : Forall₂ RB bs bs') :
    Forall₂ (Both RA RB) (pairs as bs) (pairs as' bs') := by
  cases hb with
  | nil => exact .nil
  | cons hb _ =>
      simp only [pairs, List.head?_cons, List.forall₂_map_left_iff,
        List.forall₂_map_right_iff]
      exact ha.imp fun _ _ h => ⟨h, hb⟩

theorem values_combine {oldLeft left : Table α} {oldRight right : Table β}
    {old : Option (Table (α × β))} (d : Decides RA sameIn)
    (d' : Decides RB sameOut) (hleft : Continues RA oldLeft left)
    (hright : Continues RB oldRight right)
    (hold : ∀ t, old = some t →
      Forall₂ (Both RA RB) t.values
        (pairs oldLeft.values oldRight.values)) :
    Forall₂ (Both RA RB)
      (combine sameIn sameOut oldLeft left right old).tables.values
      (pairs left.values right.values) := by
  have dp := d.pair d'
  refine values_unlessIdle
    (P := (Forall₂ (Both RA RB) · (pairs left.values right.values)))
    (fun t ht hidle => ?_) ?_
  · rw [Bool.and_eq_true] at hidle
    rw [hleft.kept hidle.1, hright.kept hidle.2]
    exact hold t ht
  · have hself := self_getD fun t ht => dp.self_of_mem (hold t ht)
    split
    · next hnone =>
      rw [pairs, show right.values.head? = none from hnone]
      exact dp.values_diff hself .nil
    · next b hsome =>
      have hhead : right.values.head? = some b := hsome
      have hb : RB b b := hright.self b (List.mem_of_head? hhead)
      rw [pairs, hhead]
      refine dp.values_diff hself ?_
      refine Plan.forall₂_results_byPlace d dp (fun _ _ h => ⟨h, hb⟩)
        (self_live hleft.self) ?_
      split
      · next hcached =>
        -- the right value is the one that the old pairs were made with
        rw [hright.kept hcached] at hhead
        refine zip_old (f := fun a => (a, b)) hleft.old_self fun t ht => ?_
        simpa [pairs, hhead] using hold t ht
      · simp

theorem kept_combine {oldLeft left : Table α} {right : Table β}
    {old : Option (Table (α × β))}
    (h : (combine sameIn sameOut oldLeft left right old).tables.isCached
      = true) :
    (combine sameIn sameOut oldLeft left right old).tables.values =
      (old.getD .empty).values := by
  refine kept_unlessIdle (fun t ht => ?_) h
  split at ht
  · exact Table.values_diff_of_isCached ht
  · exact Table.values_diff_of_isCached ht

theorem values_output {oldInput input : Table α} {old : Option (Table α)}
    (d : Decides RA sameIn) (hin : Continues RA oldInput input)
    (hold : ∀ t, old = some t → Forall₂ RA t.values oldInput.values) :
    Forall₂ RA (output sameIn input old).tables.values input.values := by
  refine values_unlessIdle (P := (Forall₂ RA · input.values))
    (fun t ht hidle => ?_) ?_
  · rw [hin.kept hidle]
    exact hold t ht
  · have hself := self_getD fun t ht => d.self_of_mem (hold t ht)
    exact d.values_diff hself (List.forall₂_same.2 hin.self)

theorem kept_output {input : Table α} {old : Option (Table α)}
    (h : (output sameIn input old).tables.isCached = true) :
    (output sameIn input old).tables.values = (old.getD .empty).values :=
  kept_unlessIdle (fun _ => Table.values_diff_of_isCached) h

end Work

end Regen
