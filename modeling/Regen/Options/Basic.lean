import Regen.Graph.Kind

/-!
Options that are fixed for the lifetime of a session.
-/

namespace Regen

structure Options where
  trackSteps : Bool := false
  incrementalEdits : Bool := true
  /-- Kinds of output that are never evaluated. -/
  disabledOutputs : List OutputKind := []
  deriving DecidableEq, Repr

namespace Options

def trackingSteps (o : Options) : Options :=
  { o with trackSteps := true }

def withoutAbsorbing (o : Options) : Options :=
  { o with incrementalEdits := false }

def disable (o : Options) (kind : OutputKind) : Options :=
  if kind ∈ o.disabledOutputs then o
  else { o with disabledOutputs := o.disabledOutputs ++ [kind] }

def isEnabled (o : Options) (kind : OutputKind) : Bool :=
  !o.disabledOutputs.contains kind

theorem isEnabled_disable (o : Options) (disabled kind : OutputKind) :
    (o.disable disabled).isEnabled kind =
      (o.isEnabled kind && kind != disabled) := by
  unfold disable
  split
  · next h =>
      by_cases hk : kind = disabled
      · subst hk
        simp [isEnabled, h]
      · simp [isEnabled, hk]
  · by_cases hk : kind = disabled <;> simp [isEnabled, hk]

end Options

end Regen
