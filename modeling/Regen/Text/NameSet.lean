/-!
Sets of names as ascending lists without repetition, so that two sets are equal
as lists exactly when they have the same elements.
-/

namespace Regen.Text

def insertName (s : String) : List String → List String
  | [] => [s]
  | t :: ts =>
      if s < t then s :: t :: ts
      else if s = t then t :: ts
      else t :: insertName s ts

def nameSet (names : List String) : List String :=
  names.foldr insertName []

theorem mem_insertName {s x : String} {ts : List String} :
    x ∈ insertName s ts ↔ x = s ∨ x ∈ ts := by
  induction ts with
  | nil => simp [insertName]
  | cons t ts ih =>
      unfold insertName
      split
      · simp
      · split
        · next h => simp [h]
        · simp only [List.mem_cons, ih]
          exact or_left_comm

@[simp] theorem mem_nameSet {x : String} {names : List String} :
    x ∈ nameSet names ↔ x ∈ names := by
  induction names with
  | nil => simp [nameSet]
  | cons n ns ih =>
      rw [nameSet] at ih ⊢
      simp [mem_insertName, ih]

end Regen.Text
