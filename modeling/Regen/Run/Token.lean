import Regen.Error

/-!
Cancellation tokens.  A token points to a flag; copies of a token share it.
Once raised, a flag stays raised.
-/

namespace Regen

/-- All tokens that were made, each given by the number of its flag. -/
structure Tokens where
  flagOf : List Nat := [0]
  raised : List Nat := []
  deriving DecidableEq, Repr

namespace Tokens

def single : Tokens := {}

def fresh (t : Tokens) : Tokens :=
  { t with flagOf := t.flagOf ++ [t.flagOf.length] }

def copy (t : Tokens) (i : Nat) : Tokens :=
  match t.flagOf[i]? with
  | some flag => { t with flagOf := t.flagOf ++ [flag] }
  | none => t

def cancel (t : Tokens) (i : Nat) : Tokens :=
  match t.flagOf[i]? with
  | some flag => { t with raised := flag :: t.raised }
  | none => t

def states (t : Tokens) : List Bool :=
  t.flagOf.map t.raised.contains

def check (t : Tokens) (i : Nat) : Except RunError Unit :=
  if t.states[i]? = some true then .error .cancelled else .ok ()

end Tokens

end Regen
