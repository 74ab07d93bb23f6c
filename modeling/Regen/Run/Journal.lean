import Regen.Error
import Regen.Run.Event

/-!
Journals.  A run is evaluated as if nobody interrupted it and keeps a journal of
what it does: calls of the functions that a generator registered, events, and
the places where it looks whether it was asked to stop.  A cancellation then
cuts the journal at the first such place at which the request can be seen; the
run ends there and has no other outcome than to be cancelled.
-/

namespace Regen

inductive CallKind where
  | predicate
  | map
  deriving DecidableEq, Repr

structure Site where
  graph : GraphId
  step : StepId
  deriving DecidableEq, Repr

inductive Action where
  | poll
  | call (kind : CallKind) (site : Site)
  | report (event : Event)
  deriving DecidableEq, Repr

abbrev Journal := List Action

namespace Journal

def events (j : Journal) : List Event :=
  j.filterMap fun
    | .report event => some event
    | _ => none

def calls (j : Journal) (kind : CallKind) (site : Site) : Nat :=
  j.countP (· == .call kind site)

end Journal

/--
When a request to stop can be seen: after how many calls have begun and how many
looks have been taken.
-/
structure Cancellation where
  isSet : (calls polls : Nat) → Bool

namespace Cancellation

def never : Cancellation := ⟨fun _ _ => false⟩

/-- The request is made as the `n`-th call begins, or up front if `n` is zero. -/
def atCall (n : Nat) : Cancellation := ⟨fun calls _ => n ≤ calls⟩

/-- The journal in front of the look that sees the request, if there is one. -/
def cutFrom (c : Cancellation) : (calls polls : Nat) → Journal → Option Journal
  | _, _, [] => none
  | calls, polls, .poll :: rest =>
      if c.isSet calls polls then some []
      else (c.cutFrom calls (polls + 1) rest).map (.poll :: ·)
  | calls, polls, .call kind site :: rest =>
      (c.cutFrom (calls + 1) polls rest).map (.call kind site :: ·)
  | calls, polls, .report event :: rest =>
      (c.cutFrom calls polls rest).map (.report event :: ·)

def cut (c : Cancellation) (j : Journal) : Option Journal :=
  c.cutFrom 0 0 j

theorem cutFrom_never (calls polls : Nat) (j : Journal) :
    never.cutFrom calls polls j = none := by
  induction j generalizing calls polls with
  | nil => rfl
  | cons a j ih =>
      have unset : never.isSet calls polls = false := rfl
      cases a <;> simp [cutFrom, unset, ih]

end Cancellation

structure Traced (α : Type) where
  journal : Journal := []
  outcome : Except RunError α

namespace Traced

variable {α β : Type}

def pure (a : α) : Traced α := ⟨[], .ok a⟩

def lift (outcome : Except RunError α) : Traced α := ⟨[], outcome⟩

def record (journal : Journal) : Traced Unit := ⟨journal, .ok ()⟩

def bind (x : Traced α) (f : α → Traced β) : Traced β :=
  match x.outcome with
  | .ok a =>
      let y := f a
      ⟨x.journal ++ y.journal, y.outcome⟩
  | .error e => ⟨x.journal, .error e⟩

instance : Monad Traced where
  pure := pure
  bind := bind

def under (c : Cancellation) (x : Traced α) : Traced α :=
  match c.cut x.journal with
  | some journal => ⟨journal, .error .cancelled⟩
  | none => x

@[simp] theorem outcome_pure (a : α) :
    (Pure.pure a : Traced α).outcome = .ok a := rfl

@[simp] theorem outcome_bind (x : Traced α) (f : α → Traced β) :
    (x >>= f).outcome = x.outcome.bind fun a => (f a).outcome := by
  obtain ⟨journal, outcome⟩ := x
  cases outcome <;> rfl

@[simp] theorem outcome_lift (outcome : Except RunError α) :
    (lift outcome).outcome = outcome := rfl

@[simp] theorem outcome_record (journal : Journal) :
    (record journal).outcome = .ok () := rfl

@[simp] theorem under_never (x : Traced α) : x.under .never = x := by
  simp [under, Cancellation.cut, Cancellation.cutFrom_never]

end Traced

end Regen
