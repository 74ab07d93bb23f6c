import Mathlib.Data.List.Forall2
import Mathlib.Data.List.Nodup
import Regen.Run.Work

/-!
# Values that count as the same

A run compares values by `Carrier.same`, which may be coarser than equality on
the values of a generator and looks at the digest of a text only.  `Alike` is
the relation that such a comparison is meant to decide: equality, except that
the values of a generator are compared by their own test.  It speaks only of
texts that are `known`; among these, no two contents may share a digest.
-/

namespace Regen

open List (Forall₂)
open Syntax

/--
`same` decides `R` among the values that `R` relates to themselves; `R` is
symmetric and transitive.
-/
structure Decides {α : Type} (R : α → α → Prop) (same : α → α → Bool) :
    Prop where
  symm : ∀ {a b}, R a b → R b a
  trans : ∀ {a b c}, R a b → R b c → R a c
  of_same : ∀ {a b}, R a a → R b b → same a b = true → R a b

def Both {α β : Type} (R : α → α → Prop) (S : β → β → Prop) (x y : α × β) :
    Prop :=
  R x.1 y.1 ∧ S x.2 y.2

namespace Decides

variable {α β : Type} {R : α → α → Prop} {same : α → α → Bool}
  {S : β → β → Prop} {sameRight : β → β → Bool}

theorem left (h : Decides R same) {a b : α} (hab : R a b) : R a a :=
  h.trans hab (h.symm hab)

theorem right (h : Decides R same) {a b : α} (hab : R a b) : R b b :=
  h.trans (h.symm hab) hab

theorem of_eq [BEq α] [LawfulBEq α] :
    Decides (fun a b : α => a = b) (· == ·) where
  symm := Eq.symm
  trans := Eq.trans
  of_same _ _ h := eq_of_beq h

private theorem symmAll (h : Decides R same) {as bs : List α} (hab : Forall₂ R as bs) :
    Forall₂ R bs as :=
  hab.flip.imp fun _ _ => h.symm

private theorem transAll (h : Decides R same) {as bs cs : List α}
    (hab : Forall₂ R as bs) (hbc : Forall₂ R bs cs) : Forall₂ R as cs := by
  induction hab generalizing cs with
  | nil => cases hbc; exact .nil
  | cons hab _ ih =>
      cases hbc with
      | cons hbc hrest => exact .cons (h.trans hab hbc) (ih hrest)

theorem self_of_mem (h : Decides R same) {as bs : List α}
    (hab : Forall₂ R as bs) : ∀ a ∈ as, R a a := by
  induction hab with
  | nil => simp
  | cons hab _ ih =>
      rintro a (_ | ⟨_, ha⟩)
      · exact h.left hab
      · exact ih a ha

theorem list (h : Decides R same) : Decides (Forall₂ R) (sameList same) where
  symm := h.symmAll
  trans := h.transAll
  of_same := by
    intro as bs ha hb hsame
    induction as generalizing bs with
    | nil =>
        cases bs with
        | nil => exact .nil
        | cons b bs => simp [sameList] at hsame
    | cons a as ih =>
        cases bs with
        | nil => simp [sameList] at hsame
        | cons b bs =>
            rw [sameList, Bool.and_eq_true] at hsame
            cases ha with
            | cons ha has =>
                cases hb with
                | cons hb hbs =>
                    exact .cons (h.of_same ha hb hsame.1) (ih has hbs hsame.2)

theorem pair (h : Decides R same) (h' : Decides S sameRight) :
    Decides (Both R S) (Work.samePair same sameRight) where
  symm hab := ⟨h.symm hab.1, h'.symm hab.2⟩
  trans hab hbc := ⟨h.trans hab.1 hbc.1, h'.trans hab.2 hbc.2⟩
  of_same ha hb hsame := by
    rw [Work.samePair, Bool.and_eq_true] at hsame
    exact ⟨h.of_same ha.1 hb.1 hsame.1, h'.of_same ha.2 hb.2 hsame.2⟩

end Decides

/-- Among the known texts the digest tells contents apart. -/
def CollisionFree (known : TextFile → Prop) : Prop :=
  ∀ a b, known a → known b → a.digest = b.digest → a.content = b.content

theorem collisionFree_of_nodup {known : TextFile → Prop} {texts : List TextFile}
    (hknown : ∀ t, known t → t ∈ texts)
    (hnodup : (texts.map (·.digest)).Nodup) : CollisionFree known := by
  intro a b ha hb hdigest
  rw [List.inj_on_of_nodup_map hnodup (hknown a ha) (hknown b hb) hdigest]

theorem Decides.text {known : TextFile → Prop} (free : CollisionFree known) :
    Decides (fun a b => a = b ∧ known a) TextFile.same where
  symm := fun ⟨hab, hk⟩ => ⟨hab.symm, hab ▸ hk⟩
  trans := fun ⟨hab, hk⟩ ⟨hbc, _⟩ => ⟨hab.trans hbc, hk⟩
  of_same := by
    rintro ⟨p, x⟩ ⟨q, y⟩ ⟨-, ha⟩ ⟨-, hb⟩ hsame
    obtain ⟨hpath, hdigest⟩ := (TextFile.same_iff _ _).1 hsame
    obtain rfl : p = q := hpath
    obtain rfl : x = y := free _ _ ha hb hdigest
    exact ⟨rfl, ha⟩

namespace Carrier

variable {U : Type} [BEq U] {known : TextFile → Prop}

def Alike (known : TextFile → Prop) :
    (type : DataType) → Carrier U type → Carrier U type → Prop
  | .tree => fun (a b : Tree) => a = b
  | .text => fun (a b : TextFile) => a = b ∧ known a
  | .marked => fun (a b : Marked) => a = b
  | .source => fun (a b : Generated) => a = b
  | .value => fun (a b : U) => (a == b) = true
  | .list item => Forall₂ (Alike known item)
  | .pair left right => Both (Alike known left) (Alike known right)
  | .aliases => fun (a b : AliasSet) => a = b
  | .node => fun (a b : Node) => a = b
  | .scan => fun (a b : Scan) => a = b
  | .perTree item => fun a b => a.tree = b.tree ∧ Alike known item a.item b.item

theorem alike_decides [EquivBEq U] (free : CollisionFree known) :
    (type : DataType) → Decides (Alike (U := U) known type) (same type)
  | .tree => Decides.of_eq (α := Tree)
  | .text => Decides.text free
  | .marked => Decides.of_eq (α := Marked)
  | .source => Decides.of_eq (α := Generated)
  | .value =>
      { symm := fun {_ _} h => BEq.symm h
        trans := fun {_ _ _} h h' => BEq.trans h h'
        of_same := fun {_ _} _ _ h => h }
  | .list item => (alike_decides free item).list
  | .pair left right => (alike_decides free left).pair (alike_decides free right)
  | .aliases => Decides.of_eq (α := AliasSet)
  | .node => Decides.of_eq (α := Node)
  | .scan => Decides.of_eq (α := Scan)
  | .perTree item =>
      let h := alike_decides free item
      { symm := fun {_ _} hab => ⟨hab.1.symm, h.symm hab.2⟩
        trans := fun {_ _ _} hab hbc =>
          ⟨hab.1.trans hbc.1, h.trans hab.2 hbc.2⟩
        of_same := fun {a b} ha hb hsame => by
          have hboth : (a.tree == b.tree) = true ∧
              same item a.item b.item = true := by
            simpa [same, Bool.and_eq_true] using hsame
          exact ⟨eq_of_beq hboth.1, h.of_same ha.2 hb.2 hboth.2⟩ }

private theorem eq_of_alike [LawfulBEq U] :
    (type : DataType) → {a b : Carrier U type} → Alike known type a b → a = b
  | .tree, _, _, h | .marked, _, _, h | .source, _, _, h | .aliases, _, _, h
  | .node, _, _, h | .scan, _, _, h => h
  | .text, _, _, h => h.1
  | .value, _, _, h => eq_of_beq h
  | .list item, _, _, h =>
      List.forall₂_eq_eq_eq ▸ List.Forall₂.imp (fun _ _ => eq_of_alike item) h
  | .pair left right, _, _, h =>
      Prod.ext (eq_of_alike left h.1) (eq_of_alike right h.2)
  | .perTree item, ⟨_, _⟩, ⟨_, _⟩, h =>
      PerTree.mk.injEq .. ▸ ⟨h.1, eq_of_alike item h.2⟩

theorem alike_map_of_lawful [LawfulBEq U] {α β : DataType}
    {f : Carrier U α → Carrier U β}
    (h : ∀ a, Alike known α a a → Alike known β (f a) (f a))
    (a b : Carrier U α) (hab : Alike known α a b) :
    Alike known β (f a) (f b) := by
  obtain rfl := eq_of_alike α hab
  exact h a hab

end Carrier

end Regen
