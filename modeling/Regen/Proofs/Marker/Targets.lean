import Mathlib.Data.List.Sort
import Mathlib.Data.String.Basic
import Regen.Proofs.Marker.Rewalk

/-!
# What the targets of a name depend on

A set of targets is told by the aliases that are declared, in whatever order and
however often each of them comes.  So do two sets of aliases made of the same
declarations give every name the same targets, whichever file comes first.
-/

namespace Regen

namespace Text

variable {names names' : List String}

private theorem pairwise_insertName {s : String} (h : names.Pairwise (· < ·)) :
    (insertName s names).Pairwise (· < ·) := by
  induction names with
  | nil => simp [insertName]
  | cons t ts ih =>
      obtain ⟨hfirst, hrest⟩ := List.pairwise_cons.1 h
      unfold insertName
      split
      · next hlt =>
        refine List.pairwise_cons.2 ⟨fun x hx => ?_, h⟩
        rcases List.mem_cons.1 hx with rfl | hx
        · exact hlt
        · exact hlt.trans (hfirst x hx)
      · next hle =>
        split
        · exact h
        · next hne =>
          refine List.pairwise_cons.2 ⟨fun x hx => ?_, ih hrest⟩
          rcases mem_insertName.1 hx with rfl | hx
          · exact lt_of_le_of_ne (not_lt.1 hle) (Ne.symm hne)
          · exact hfirst x hx

theorem pairwise_nameSet (names : List String) :
    (nameSet names).Pairwise (· < ·) := by
  induction names with
  | nil => exact .nil
  | cons name names ih => exact pairwise_insertName ih

theorem nameSet_congr (h : ∀ x, x ∈ names ↔ x ∈ names') :
    nameSet names = nameSet names' :=
  (pairwise_nameSet names).eq_of_mem_iff (pairwise_nameSet names') fun {x} => by
    rw [mem_nameSet, mem_nameSet, h]

end Text

namespace AliasSet

/-- The two sets declare the same aliases; order and number do not count. -/
def SameAliases (s s' : AliasSet) : Prop :=
  ∀ a, a ∈ s.pairs ↔ a ∈ s'.pairs

variable {s s' : AliasSet}

theorem SameAliases.targetSet_eq (h : SameAliases s s') (name : String) :
    s.targetSet name = s'.targetSet name := by
  refine Text.nameSet_congr fun target => ?_
  rw [mem_targets, mem_targets, h]

theorem sameAliases_concat {parts parts' : List AliasSet}
    (h : parts ⊆ parts') (h' : parts' ⊆ parts) :
    (concat parts).SameAliases (concat parts') := by
  intro a
  simp only [concat, List.mem_flatMap]
  exact ⟨fun ⟨part, hpart, ha⟩ => ⟨part, h hpart, ha⟩,
    fun ⟨part, hpart, ha⟩ => ⟨part, h' hpart, ha⟩⟩

end AliasSet

end Regen
