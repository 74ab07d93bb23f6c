import Regen.Marker.Alias
import Regen.Marker.Basic

/-!
Resolution: does a written name denote a marker, directly or through aliases?

Resolution follows aliases depth first.  Local aliases come first, the innermost
scope leading, then the global ones; a name that is already on the path from the
start is not entered again, so cycles end.  Only the first name may be tried in
its suffixed form.  Every global name that is looked up on the way is recorded:
as long as these names keep their targets, the outcome stays what it is.
-/

namespace Regen

/-- The aliases in force at a place; those of inner scopes come first. -/
structure Scope where
  locals : List Alias := []
  globals : AliasSet := {}
  deriving DecidableEq, Repr

namespace Scope

def localTargets (s : Scope) (name : String) : List String :=
  (s.locals.filter (·.name == name)).map (·.target)

theorem mem_localTargets {s : Scope} {name target : String} :
    target ∈ s.localTargets name ↔ ⟨name, target⟩ ∈ s.locals :=
  Alias.mem_map_target

/-- More names than a path without repetition can hold. -/
def depth (s : Scope) : Nat :=
  s.locals.length + s.globals.pairs.length + 2

end Scope

structure Resolution where
  found : Bool
  consulted : List String := []
  deriving DecidableEq, Repr

namespace Resolution

def hit : Resolution := { found := true }

def miss : Resolution := { found := false }

def orElse (a : Resolution) (b : Unit → Resolution) : Resolution :=
  if a.found then a
  else
    let r := b ()
    ⟨r.found, a.consulted ++ r.consulted⟩

def firstOf {α : Type} (f : α → Resolution) : List α → Resolution
  | [] => miss
  | a :: as => (f a).orElse fun _ => firstOf f as

def afterLookup (name : String) (r : Resolution) : Resolution :=
  { r with consulted := name :: r.consulted }

end Resolution

namespace Marker

/--
Resolves `name` within `fuel` names.  `path` holds the names between the start
and this one.
-/
def resolveWithin (m : Marker) (s : Scope) :
    (fuel : Nat) → (path : List String) → (suffixed : Bool) →
      (name : String) → Resolution
  | 0, _, _, _ => .miss
  | fuel + 1, path, suffixed, name =>
      let key := written name suffixed
      if key ∈ m.literals then .hit
      else if name ∈ path then .miss
      else
        let next := resolveWithin m s fuel (name :: path) false
        (Resolution.firstOf next (s.localTargets key)).orElse fun _ =>
          (Resolution.firstOf next (s.globals.targets key)).afterLookup key

def resolve (m : Marker) (s : Scope) (suffixed : Bool) (name : String) :
    Resolution :=
  m.resolveWithin s s.depth [] suffixed name

/-- The two attempts at an attribute: as it is written, then suffixed. -/
def resolveAttribute (m : Marker) (s : Scope) (name : String) : Resolution :=
  (m.resolve s false name).orElse fun _ => m.resolve s true name

end Marker

end Regen
