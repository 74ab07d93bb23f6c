import Regen.Marker.Scan
import Regen.Proofs.Marker.Reach

/-!
# When a file need not be scanned again

A scan records the global names that it looked up.  As long as these names keep
their sets of targets, a scan with other global aliases finds the same
declarations, whatever the order and number of the targets and whatever has
become of all other names.
-/

namespace Regen

open Relation Syntax

/-- The two sets give each of the names the same targets. -/
def AliasSet.AgreeOn (looked : List String) (old new : AliasSet) : Prop :=
  ∀ name ∈ looked, old.targetSet name = new.targetSet name

namespace AliasSet

variable {old new : AliasSet} {looked looked' : List String} {name : String}

@[simp] theorem mem_targetSet {s : AliasSet} {target : String} :
    target ∈ s.targetSet name ↔ target ∈ s.targets name := by
  simp [targetSet]

theorem AgreeOn.mono (h : AgreeOn looked old new) (hsub : looked' ⊆ looked) :
    AgreeOn looked' old new :=
  fun name hname => h name (hsub hname)

theorem AgreeOn.mem_targets (h : AgreeOn looked old new) (hname : name ∈ looked)
    {target : String} :
    target ∈ old.targets name ↔ target ∈ new.targets name := by
  rw [← mem_targetSet, ← mem_targetSet, h name hname]

end AliasSet

def Scope.withGlobals (s : Scope) (globals : AliasSet) : Scope :=
  { s with globals := globals }

private theorem Scope.enter_withGlobals (s : Scope) (globals : AliasSet) (n : Node) :
    (s.withGlobals globals).enter n = (s.enter n).withGlobals globals := by
  unfold enter
  split <;> rfl

namespace Marker

variable {m : Marker} {shape : Shape} {s : Scope} {old new : AliasSet}
  {name : String}

private theorem leads_withGlobals {looked : List String}
    (agree : AliasSet.AgreeOn looked s.globals new) {a b : String}
    (e : s.LeadsWithin looked a b) : (s.withGlobals new).Leads a b := by
  rcases e with hlocal | ⟨ha, hglobal⟩
  · exact .inl hlocal
  · exact .inr ((agree.mem_targets ha).1 hglobal)

private theorem found_resolveAttribute_withGlobals
    (agree : AliasSet.AgreeOn (m.resolveAttribute s name).consulted
      s.globals new) :
    (m.resolveAttribute (s.withGlobals new) name).found =
      (m.resolveAttribute s name).found := by
  cases hold : (m.resolveAttribute s name).found with
  | true =>
      obtain ⟨suffixed, literal, hl, chain⟩ := resolveAttribute_hit hold
      have chain' : ReflTransGen (s.withGlobals new).Leads
          (written name suffixed) literal :=
        ReflTransGen.mono (fun _ _ e => leads_withGlobals agree e) _ _ chain
      by_contra hmiss
      exact (resolveAttribute_miss (by simpa using hmiss) suffixed chain').1 hl
  | false =>
      by_contra hhit
      obtain ⟨suffixed, literal, hl, chain⟩ :=
        resolveAttribute_hit (Bool.of_not_eq_false hhit)
      -- every link of the new chain starts at a name that was looked up
      have chain' : ReflTransGen s.Leads (written name suffixed) literal := by
        clear hl
        induction chain with
        | refl => exact .refl
        | @tail a b _ e ih =>
            have ha := (resolveAttribute_miss hold suffixed ih).2
            refine ih.tail (e.imp_right fun ⟨_, hb⟩ => ?_)
            exact (agree.mem_targets ha).2 hb
      exact (resolveAttribute_miss hold suffixed chain').1 hl

private theorem found_firstOf_congr {α : Type} {f g : α → Resolution}
    (h : ∀ a, AliasSet.AgreeOn (f a).consulted old new →
      (g a).found = (f a).found) {as : List α}
    (agree : AliasSet.AgreeOn (Resolution.firstOf f as).consulted old new) :
    (Resolution.firstOf g as).found = (Resolution.firstOf f as).found := by
  induction as with
  | nil => rfl
  | cons a as ih =>
      simp only [Resolution.firstOf, Resolution.found_orElse] at agree ⊢
      cases ha : (f a).found with
      | true =>
          rw [Resolution.orElse_of_hit _ ha] at agree
          simp [h a agree, ha]
      | false =>
          rw [Resolution.consulted_orElse_of_miss _ ha] at agree
          have hfirst := h a (agree.mono (List.subset_append_left _ _))
          have hrest := ih (agree.mono (List.subset_append_right _ _))
          simp [hfirst, ha, hrest]

private theorem nodes_scanOwner_withGlobals (n : Node)
    (agree : AliasSet.AgreeOn (m.scanOwner shape s n).consulted
      s.globals new) :
    (m.scanOwner shape (s.withGlobals new) n).nodes =
      (m.scanOwner shape s n).nodes := by
  unfold scanOwner at agree ⊢
  split
  · next haccepts =>
    simp only [if_pos haccepts] at agree ⊢
    rw [found_firstOf_congr
      (fun _ h => found_resolveAttribute_withGlobals h) agree]
  · rfl

mutual

private theorem nodes_scanNode_withGlobals (s : Scope) : (n : Node) →
    AliasSet.AgreeOn (m.scanNode shape s n).consulted s.globals new →
    (m.scanNode shape (s.withGlobals new) n).nodes =
      (m.scanNode shape s n).nodes
  | ⟨kind, name, usings, attributes, children⟩, agree => by
      rw [scanNode] at agree ⊢
      rw [scanNode]
      by_cases hkind : kind = .attributeList
      · simp [hkind]
      · simp only [if_neg hkind, Scope.enter_withGlobals, Scan.nodes_append,
          Scan.consulted_append] at agree ⊢
        set n : Node := ⟨kind, name, usings, attributes, children⟩
        have hglobals : (s.enter n).globals = s.globals := by
          unfold Scope.enter
          split <;> rfl
        rw [← hglobals] at agree
        rw [nodes_scanOwner_withGlobals n
            (agree.mono (List.subset_append_left _ _)),
          nodes_scanNodes_withGlobals (s.enter n) children
            (agree.mono (List.subset_append_right _ _))]

private theorem nodes_scanNodes_withGlobals (s : Scope) : (ns : List Node) →
    AliasSet.AgreeOn (m.scanNodes shape s ns).consulted s.globals new →
    (m.scanNodes shape (s.withGlobals new) ns).nodes =
      (m.scanNodes shape s ns).nodes
  | [], _ => rfl
  | n :: ns, agree => by
      simp only [scanNodes, Scan.nodes_append, Scan.consulted_append]
        at agree ⊢
      rw [nodes_scanNode_withGlobals s n
          (agree.mono (List.subset_append_left _ _)),
        nodes_scanNodes_withGlobals s ns
          (agree.mono (List.subset_append_right _ _))]

end

theorem nodes_scanFile_congr {root : Node}
    (agree : AliasSet.AgreeOn (m.scanFile shape old root).consulted old new) :
    (m.scanFile shape new root).nodes = (m.scanFile shape old root).nodes := by
  refine nodes_scanNode_withGlobals { globals := old } root
    (agree.mono fun name hname => ?_)
  simpa [scanFile] using hname

end Marker

theorem AliasSet.agreeOn_of_unchanged {looked : List String}
    {globals : Nat → AliasSet} {n : Nat}
    (h : ∀ i < n, ∀ name ∈ looked,
      name ∉ changedNames (globals i) (globals (i + 1))) :
    AgreeOn looked (globals 0) (globals n) := by
  induction n with
  | zero => exact fun _ _ => rfl
  | succ n ih =>
      intro name hname
      have hlast : (globals n).targetSet name =
          (globals (n + 1)).targetSet name := by
        have := h n (by omega) name hname
        rwa [mem_changedNames, not_not] at this
      rw [ih (fun i hi => h i (by omega)) name hname, hlast]

/--
A file keeps its scan soundly: along any chain of alias sets in which no name
that the scan looked up changes, a scan at the end of the chain finds the same
declarations in the same order.
-/
theorem Marker.scanFile_nodes_of_unchanged (m : Marker) (shape : Shape)
    (root : Node) (globals : Nat → AliasSet) (n : Nat)
    (h : ∀ i < n, ∀ name ∈ (m.scanFile shape (globals 0) root).consulted,
      name ∉ AliasSet.changedNames (globals i) (globals (i + 1))) :
    (m.scanFile shape (globals n) root).nodes =
      (m.scanFile shape (globals 0) root).nodes :=
  nodes_scanFile_congr (AliasSet.agreeOn_of_unchanged h)

/-! ## A chain of circular aliases -/

def aliasedFile : Node :=
  .unit [] [(Node.declaration .classType "C").marked ["X"]]

def circularAliases : Nat → AliasSet
  | 0 => ⟨[⟨"X", "Y"⟩, ⟨"Y", "X"⟩, ⟨"X", "MAttribute"⟩]⟩
  | 1 => ⟨[⟨"X", "MAttribute"⟩, ⟨"Z", "X"⟩, ⟨"X", "Y"⟩, ⟨"Y", "X"⟩, ⟨"Y", "X"⟩]⟩
  | _ => ⟨[⟨"Y", "X"⟩, ⟨"X", "MAttribute"⟩, ⟨"X", "Y"⟩, ⟨"Q", "Q"⟩]⟩

def markerM : Marker :=
  ⟨"M", by decide +kernel⟩

theorem scan_kept_by_circularAliases :
    (∀ i < 2, ∀ name ∈ (markerM.scanFile .anyDeclaration (circularAliases 0)
        aliasedFile).consulted,
      name ∉ AliasSet.changedNames (circularAliases i)
        (circularAliases (i + 1))) ∧
    (markerM.scanFile .anyDeclaration (circularAliases 2) aliasedFile).nodes =
      (markerM.scanFile .anyDeclaration (circularAliases 0)
        aliasedFile).nodes ∧
    (markerM.scanFile .anyDeclaration (circularAliases 0)
      aliasedFile).nodes.length = 1 := by
  have unchanged : ∀ i < 2, ∀ name ∈ (markerM.scanFile .anyDeclaration
      (circularAliases 0) aliasedFile).consulted,
      name ∉ AliasSet.changedNames (circularAliases i)
        (circularAliases (i + 1)) := by
    decide +kernel
  refine ⟨unchanged, ?_, by decide +kernel⟩
  exact Marker.scanFile_nodes_of_unchanged _ _ _ _ _ unchanged

end Regen
