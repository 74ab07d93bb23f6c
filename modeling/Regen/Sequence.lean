/-!
Two ways to put an element into a list at the first place that a test accepts.
They differ where no place is found: `upsert` appends, `replaceFirst` does
nothing.
-/

namespace Regen

variable {α : Type}

def upsert (here : α → Bool) (new : α) : List α → List α
  | [] => [new]
  | a :: as => if here a then new :: as else a :: upsert here new as

def replaceFirst (here : α → Bool) (new : α) : List α → List α
  | [] => []
  | a :: as => if here a then new :: as else a :: replaceFirst here new as

theorem upsert_eq_append {here : α → Bool} {new : α} {as : List α}
    (h : ∀ a ∈ as, here a = false) : upsert here new as = as ++ [new] := by
  induction as with
  | nil => rfl
  | cons a as ih =>
      simp [upsert, h a (by simp), ih fun b hb => h b (by simp [hb])]

theorem mem_upsert_self (here : α → Bool) (new : α) (as : List α) :
    new ∈ upsert here new as := by
  induction as with
  | nil => simp [upsert]
  | cons a as ih =>
      unfold upsert
      split <;> simp [ih]

@[simp] theorem length_replaceFirst (here : α → Bool) (new : α) (as : List α) :
    (replaceFirst here new as).length = as.length := by
  induction as with
  | nil => rfl
  | cons a as ih =>
      unfold replaceFirst
      split <;> simp [ih]

end Regen
