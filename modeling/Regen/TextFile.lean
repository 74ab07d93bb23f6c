import Regen.Text.Digest

/-!
Auxiliary texts: inputs that are not source files, known by their paths.  Two
texts are the same when their paths agree and their contents have one digest.
-/

namespace Regen

structure TextFile where
  path : String
  content : String
  deriving DecidableEq, Repr

namespace TextFile

def digest (t : TextFile) : Text.Digest :=
  Text.Digest.ofText t.content

def same (a b : TextFile) : Bool :=
  a.path == b.path && a.digest == b.digest

theorem same_refl (t : TextFile) : t.same t = true := by
  simp [same]

theorem same_iff (a b : TextFile) :
    a.same b = true ↔ a.path = b.path ∧ a.digest = b.digest := by
  simp [same]

end TextFile

end Regen
