import Mathlib.Data.List.Basic
import Regen.Syntax.Node

/-!
# Places in a syntax node

A node may stand at several places of a file, so what lies where is told by
places: the numbers of the children to take on the way down.  In document order
a place comes before the places inside it, and the places inside a child come
before those inside a later child; that is the lexicographic order.
-/

namespace Regen.Syntax.Node

@[elab_as_elim]
theorem childInduction {P : Node → Prop}
    (step : ∀ n, (∀ c ∈ n.children, P c) → P n) (n : Node) : P n := by
  match n with
  | ⟨kind, name, usings, attributes, children⟩ =>
      refine step _ fun c hc => ?_
      have hlt := List.sizeOf_lt_of_mem hc
      exact childInduction step c
termination_by sizeOf n
decreasing_by
  simp only [mk.sizeOf_spec] at hlt ⊢
  omega

def at? : Node → List Nat → Option Node
  | n, [] => some n
  | n, i :: place => n.children[i]?.bind fun c => c.at? place

theorem at?_cons {n c : Node} {i : Nat} (hc : n.children[i]? = some c)
    (place : List Nat) : n.at? (i :: place) = c.at? place := by
  rw [at?, hc, Option.bind_some]

mutual

/-- All places in a node, in document order. -/
def places : Node → List (List Nat)
  | ⟨_, _, _, _, children⟩ => [] :: placesFrom 0 children

def placesFrom : (i : Nat) → List Node → List (List Nat)
  | _, [] => []
  | i, c :: cs => c.places.map (i :: ·) ++ placesFrom (i + 1) cs

end

theorem places_eq (n : Node) : n.places = [] :: placesFrom 0 n.children := by
  obtain ⟨kind, name, usings, attributes, children⟩ := n
  rw [places]

private theorem cons_mem_placesFrom {i j : Nat} {place : List Nat} {cs : List Node} :
    j :: place ∈ placesFrom i cs ↔
      ∃ k c, j = i + k ∧ cs[k]? = some c ∧ place ∈ c.places := by
  induction cs generalizing i with
  | nil => simp [placesFrom]
  | cons c cs ih =>
      have hfirst : j :: place ∈ c.places.map (i :: ·) ↔
          j = i ∧ place ∈ c.places := by
        simp only [List.mem_map, List.cons.injEq]
        constructor
        · rintro ⟨inside, hinside, rfl, rfl⟩
          exact ⟨rfl, hinside⟩
        · rintro ⟨rfl, hplace⟩
          exact ⟨place, hplace, rfl, rfl⟩
      rw [placesFrom, List.mem_append, hfirst, ih]
      constructor
      · rintro (⟨rfl, hplace⟩ | ⟨k, d, rfl, hd, hplace⟩)
        · exact ⟨0, c, rfl, rfl, hplace⟩
        · exact ⟨k + 1, d, by omega, hd, hplace⟩
      · rintro ⟨k | k, d, rfl, hd, hplace⟩
        · obtain rfl : c = d := Option.some.inj hd
          exact .inl ⟨rfl, hplace⟩
        · exact .inr ⟨k, d, by omega, hd, hplace⟩

private theorem nil_notMem_placesFrom {i : Nat} {cs : List Node} :
    [] ∉ placesFrom i cs := by
  induction cs generalizing i with
  | nil => simp [placesFrom]
  | cons c cs ih => simp [placesFrom, ih]

theorem mem_places {n : Node} {place : List Nat} :
    place ∈ n.places ↔ ∃ x, n.at? place = some x := by
  induction place generalizing n with
  | nil => simp [places_eq, at?]
  | cons i place ih =>
      rw [places_eq, List.mem_cons, cons_mem_placesFrom, at?]
      constructor
      · rintro (hnil | ⟨k, c, rfl, hc, hplace⟩)
        · contradiction
        · obtain ⟨x, hx⟩ := ih.1 hplace
          refine ⟨x, ?_⟩
          rw [Nat.zero_add, hc, Option.bind_some, hx]
      · rintro ⟨x, hx⟩
        obtain ⟨c, hc, hx⟩ := Option.bind_eq_some_iff.1 hx
        exact .inr ⟨i, c, (Nat.zero_add i).symm, hc, ih.2 ⟨x, hx⟩⟩

private theorem sorted_placesFrom {i : Nat} {cs : List Node}
    (h : ∀ c ∈ cs, c.places.Pairwise (· < ·)) :
    (placesFrom i cs).Pairwise (· < ·) := by
  induction cs generalizing i with
  | nil => exact .nil
  | cons c cs ih =>
      rw [placesFrom, List.pairwise_append]
      refine ⟨?_, ih fun d hd => h d (by simp [hd]), ?_⟩
      · rw [List.pairwise_map]
        exact (h c (by simp)).imp fun hlt => List.cons_lt_cons_self.2 hlt
      · intro place hplace later hlater
        obtain ⟨inside, -, rfl⟩ := List.mem_map.1 hplace
        cases later with
        | nil => exact absurd hlater nil_notMem_placesFrom
        | cons j later =>
            obtain ⟨k, -, rfl, -⟩ := cons_mem_placesFrom.1 hlater
            exact List.cons_lt_cons_iff.2 (.inl (by omega))

theorem sorted_places (n : Node) : n.places.Pairwise (· < ·) := by
  induction n using childInduction with
  | step n ih =>
      rw [places_eq, List.pairwise_cons]
      refine ⟨fun place hplace => ?_, sorted_placesFrom ih⟩
      cases place with
      | nil => exact absurd hplace nil_notMem_placesFrom
      | cons i place => exact List.nil_lt_cons i place

theorem map_filter_placesFrom {β : Type} {P : List Nat → Bool}
    {Q : Node → List Nat → Bool} {f : List Nat → β} {g : Node → List Nat → β}
    {i : Nat} {cs : List Node}
    (h : ∀ k c, cs[k]? = some c → ∀ place,
      P ((i + k) :: place) = Q c place ∧ f ((i + k) :: place) = g c place) :
    ((placesFrom i cs).filter P).map f =
      cs.flatMap fun c => (c.places.filter (Q c)).map (g c) := by
  induction cs generalizing i with
  | nil => rfl
  | cons c cs ih =>
      have hfirst := h 0 c rfl
      have hsame : c.places.filter (P ∘ fun place => i :: place) =
          c.places.filter (Q c) :=
        List.filter_congr fun place _ => (hfirst place).1
      have hrest : ∀ k d, cs[k]? = some d → ∀ place,
          P ((i + 1 + k) :: place) = Q d place ∧
            f ((i + 1 + k) :: place) = g d place := by
        intro k d hd place
        rw [Nat.add_right_comm]
        exact h (k + 1) d hd place
      rw [placesFrom, List.filter_append, List.map_append, ih hrest,
        List.flatMap_cons, List.filter_map, List.map_map, hsame]
      refine congrArg (· ++ _) ?_
      exact List.map_congr_left fun place _ => (hfirst place).2

/-! ## Nodes in document order -/

theorem eq_filterMap_of_map_some {α β : Type} {f : α → Option β} {as : List α}
    {bs : List β} (h : bs.map some = as.map f) : bs = as.filterMap f := by
  have hsome := congrArg (List.filterMap id) h
  rw [List.filterMap_map, List.filterMap_map] at hsome
  exact List.filterMap_some.symm.trans hsome

/-- The nodes at the places of a file, one for each place. -/
def inOrder (n : Node) : List Node :=
  n.places.filterMap n.at?

private theorem map_some_preorder (n : Node) :
    n.preorder.map some = n.places.map n.at? := by
  induction n using childInduction with
  | step n ih =>
      have inside : (placesFrom 0 n.children).map n.at? =
          n.children.flatMap fun c => c.preorder.map some := by
        have hall := @map_filter_placesFrom _ (fun _ => true)
          (fun _ _ => true) n.at? at? 0 n.children fun k c hc place =>
            ⟨rfl, by rw [Nat.zero_add, at?_cons hc]⟩
        simp only [List.filter_eq_self.2 fun _ _ => rfl] at hall
        rw [hall]
        exact List.flatMap_congr fun c hc => (ih c hc).symm
      rw [preorder_eq, places_eq, List.map_cons, List.map_cons, inside,
        List.map_flatMap]
      rfl

theorem preorder_eq_inOrder (n : Node) : n.preorder = n.inOrder :=
  eq_filterMap_of_map_some (map_some_preorder n)

end Regen.Syntax.Node
