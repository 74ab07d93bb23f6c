import Regen.Run.Journal

/-!
# Requests that last

A request to stop is not taken back: a look that comes later, and after more
calls, still sees it.  So a run that does less than one which was not cancelled
is not cancelled either.  Of a journal only the looks and the calls matter here,
the beats of the run.
-/

namespace Regen

inductive Beat where
  | look
  | call
  deriving DecidableEq, Repr

def Action.beat? : Action → Option Beat
  | .poll => some .look
  | .call _ _ => some .call
  | .report _ => none

def Journal.beats (j : Journal) : List Beat :=
  j.filterMap Action.beat?

@[simp] theorem Journal.beats_append (j k : Journal) :
    Journal.beats (j ++ k) = j.beats ++ k.beats :=
  List.filterMap_append

theorem Journal.beats_flatMap {α : Type} (as : List α) (f : α → Journal) :
    Journal.beats (as.flatMap f) = as.flatMap fun a => (f a).beats :=
  List.filterMap_flatMap

namespace Cancellation

variable {c : Cancellation} {calls polls calls' polls' : Nat}

def Lasting (c : Cancellation) : Prop :=
  ∀ {calls polls calls' polls'}, calls ≤ calls' → polls ≤ polls' →
    c.isSet calls polls = true → c.isSet calls' polls' = true

theorem lasting_never : never.Lasting :=
  nofun

theorem lasting_atCall (n : Nat) : (atCall n).Lasting := by
  intro calls polls calls' polls' hcalls _ hset
  simp only [atCall, decide_eq_true_eq] at hset ⊢
  omega

/-- No look on the way sees the request. -/
def Unseen (c : Cancellation) : (calls polls : Nat) → List Beat → Prop
  | _, _, [] => True
  | calls, polls, .look :: beats =>
      c.isSet calls polls = false ∧ c.Unseen calls (polls + 1) beats
  | calls, polls, .call :: beats => c.Unseen (calls + 1) polls beats

private theorem cutFrom_eq_none_iff (j : Journal) :
    c.cutFrom calls polls j = none ↔ c.Unseen calls polls j.beats := by
  induction j generalizing calls polls with
  | nil => exact iff_of_true rfl trivial
  | cons a j ih =>
      cases a with
      | poll =>
          change _ ↔ c.isSet calls polls = false ∧
            c.Unseen calls (polls + 1) (Journal.beats j)
          rw [cutFrom, ← ih]
          cases c.isSet calls polls <;> simp
      | call kind site =>
          rw [cutFrom, Option.map_eq_none_iff]
          exact ih
      | report event =>
          rw [cutFrom, Option.map_eq_none_iff]
          exact ih

theorem cut_eq_none_congr {j k : Journal} (h : k.beats = j.beats) :
    c.cut k = none ↔ c.cut j = none := by
  rw [cut, cut, cutFrom_eq_none_iff, cutFrom_eq_none_iff, h]

theorem Unseen.sublist (lasting : c.Lasting) {beats beats' : List Beat}
    (hsub : beats'.Sublist beats) (hcalls : calls' ≤ calls)
    (hpolls : polls' ≤ polls) (h : c.Unseen calls polls beats) :
    c.Unseen calls' polls' beats' := by
  induction hsub generalizing calls polls calls' polls' with
  | slnil => trivial
  | cons beat _ ih =>
      cases beat with
      | look => exact ih hcalls (Nat.le_succ_of_le hpolls) h.2
      | call => exact ih (Nat.le_succ_of_le hcalls) hpolls h
  | cons_cons beat _ ih =>
      cases beat with
      | look =>
          refine ⟨?_, ih hcalls (Nat.succ_le_succ hpolls) h.2⟩
          cases hset : c.isSet calls' polls' with
          | false => rfl
          | true => rw [← lasting hcalls hpolls hset, h.1]
      | call => exact ih (Nat.succ_le_succ hcalls) hpolls h

theorem Lasting.cut_eq_none (lasting : c.Lasting) {j k : Journal}
    (hsub : k.beats.Sublist j.beats) (h : c.cut j = none) : c.cut k = none := by
  have hunseen : c.Unseen 0 0 j.beats := (cutFrom_eq_none_iff j).1 h
  exact (cutFrom_eq_none_iff k).2
    (hunseen.sublist lasting hsub (Nat.le_refl 0) (Nat.le_refl 0))

end Cancellation

namespace Traced

variable {α β : Type} {c : Cancellation} {x : Traced α} {y : Traced β}

private theorem under_of_cut_eq_none (h : c.cut x.journal = none) : x.under c = x := by
  rw [under, h]

private theorem cut_eq_none_of_ok {a : α} (h : (x.under c).outcome = .ok a) :
    c.cut x.journal = none := by
  cases hcut : c.cut x.journal with
  | none => rfl
  | some journal =>
      rw [under, hcut] at h
      contradiction

theorem under_of_no_beats (h : x.journal.beats = []) : x.under c = x := by
  apply under_of_cut_eq_none
  rw [Cancellation.cut, Cancellation.cutFrom_eq_none_iff, h]
  trivial

theorem outcome_under_eq_ok_iff {a : α} : (x.under c).outcome = .ok a ↔
    c.cut x.journal = none ∧ x.outcome = .ok a := by
  constructor
  · intro h
    have huncut := cut_eq_none_of_ok h
    rw [under_of_cut_eq_none huncut] at h
    exact ⟨huncut, h⟩
  · rintro ⟨huncut, h⟩
    rw [under_of_cut_eq_none huncut, h]

end Traced

end Regen
