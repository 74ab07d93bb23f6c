import Regen.Proofs.Marker.Rewalk
import Regen.Proofs.Marker.Search
import Regen.Proofs.Syntax.Place

/-!
# What a scan finds

A scan lists the nodes at the marked places of a file, each place once and in
document order.  A place is marked when its node is of the shape, lies outside
of attribute lists, and bears in one of its own attribute lists a name from
which aliases lead to the marker; in force are the global aliases and those that
the scopes around the place declare for themselves.
-/

namespace Regen

open Syntax

private theorem Alias.ofUsing?_eq_some {u : Using} {a : Alias} :
    Alias.ofUsing? u = some a ↔
      u.aliasName = some a.name ∧ unqualified u.name = a.target := by
  obtain ⟨name, target⟩ := a
  cases h : u.aliasName <;> simp [ofUsing?, Using.aliasPair?, h]

/-- A compilation unit or a namespace declares the alias for itself. -/
def Alias.DeclaredBy (a : Alias) (n : Node) : Prop :=
  (n.kind = .compilationUnit ∨ n.kind = .namespaceBlock) ∧
    ∃ u ∈ n.usings, u.isGlobal = false ∧ u.aliasName = some a.name ∧
      unqualified u.name = a.target

private theorem Alias.declaredBy_iff {a : Alias} {n : Node} :
    a.DeclaredBy n ↔ n.kind.opensScope = true ∧ a ∈ Alias.locals n := by
  refine and_congr ?_ ?_
  · cases n.kind <;> simp [Kind.opensScope]
  · simp [Alias.locals, Alias.ofUsing?_eq_some, and_assoc]

/--
An alias in force at a place of a node that lies in scope `s`: one of the scope,
or one that a compilation unit or a namespace on the way to the place declares
for itself.
-/
def Scope.InForce (s : Scope) (root : Node) (place : List Nat) (a : Alias) :
    Prop :=
  a ∈ s.locals ++ s.globals.pairs ∨
    ∃ above n, above <+: place ∧ root.at? above = some n ∧ a.DeclaredBy n

namespace Scope

variable {s : Scope} {root n c : Node} {i : Nat} {place : List Nat} {a : Alias}

private theorem mem_enter : a ∈ (s.enter n).locals ++ (s.enter n).globals.pairs ↔
    a ∈ s.locals ++ s.globals.pairs ∨ a.DeclaredBy n := by
  rw [Alias.declaredBy_iff, enter]
  split
  · next h =>
    simp only [h, List.mem_append, List.mem_reverse]
    tauto
  · next h => simp [h]

private theorem inForce_nil : s.InForce n [] a ↔
    a ∈ (s.enter n).locals ++ (s.enter n).globals.pairs := by
  rw [mem_enter, InForce]
  refine or_congr_right ⟨?_, ?_⟩
  · rintro ⟨above, x, habove, hx, ha⟩
    obtain rfl := List.prefix_nil.1 habove
    obtain rfl : n = x := Option.some.inj hx
    exact ha
  · intro ha
    exact ⟨[], n, List.prefix_refl _, rfl, ha⟩

private theorem inForce_cons (hc : n.children[i]? = some c) :
    s.InForce n (i :: place) a ↔ (s.enter n).InForce c place a := by
  have hat := Node.at?_cons hc
  rw [InForce, InForce, mem_enter, or_assoc]
  refine or_congr_right ⟨?_, ?_⟩
  · rintro ⟨above, x, habove, hx, ha⟩
    rcases List.prefix_cons_iff.1 habove with rfl | ⟨rest, rfl, hrest⟩
    · obtain rfl : n = x := Option.some.inj hx
      exact .inl ha
    · exact .inr ⟨rest, x, hrest, (hat rest) ▸ hx, ha⟩
  · rintro (ha | ⟨above, x, habove, hx, ha⟩)
    · exact ⟨[], n, List.nil_prefix, rfl, ha⟩
    · exact ⟨i :: above, x, List.cons_prefix_cons.2 ⟨rfl, habove⟩,
        (hat above).trans hx, ha⟩

end Scope

namespace Marker

/-- The node at a place bears the marker; no attribute list lies around it. -/
structure MarksAt (m : Marker) (shape : Shape) (s : Scope) (root : Node)
    (place : List Nat) (n : Node) : Prop where
  here : root.at? place = some n
  outside : ∀ above x, above <+: place → above ≠ place →
    root.at? above = some x → x.kind ≠ .attributeList
  accepted : shape.accepts n.kind = true
  named : ∃ list ∈ n.children, list.kind = .attributeList ∧
    ∃ mark ∈ list.attributes,
      m.Reaches (s.InForce root place) (unqualified mark.name)

def Selects (m : Marker) (shape : Shape) (s : Scope) (root : Node)
    (place : List Nat) : Prop :=
  ∃ n, n.kind ≠ .attributeList ∧ m.MarksAt shape s root place n

variable {m : Marker} {shape : Shape} {s : Scope} {n c : Node} {i : Nat}
  {place : List Nat}

/-! ## Marked places, from the top down -/

private theorem reaches_congr {P Q : Alias → Prop} (h : ∀ a, P a ↔ Q a)
    {name : String} : m.Reaches P name ↔ m.Reaches Q name := by
  rw [show P = Q from funext fun a => propext (h a)]

private theorem mem_markerNames {name : String} :
    name ∈ n.markerNames ↔ ∃ list ∈ n.children, list.kind = .attributeList ∧
      ∃ mark ∈ list.attributes, unqualified mark.name = name := by
  simp [Node.markerNames, Attribute.unqualifiedName, and_assoc]

private theorem selects_nil : m.Selects shape s n [] ↔
    n.kind ≠ .attributeList ∧ shape.accepts n.kind = true ∧
      ∃ name ∈ n.markerNames,
        (m.resolveAttribute (s.enter n) name).found = true := by
  constructor
  · rintro ⟨x, hkind, h⟩
    obtain rfl : n = x := Option.some.inj h.here
    obtain ⟨list, hlist, hlistKind, mark, hmark, hreaches⟩ := h.named
    refine ⟨hkind, h.accepted, unqualified mark.name,
      mem_markerNames.2 ⟨list, hlist, hlistKind, mark, hmark, rfl⟩, ?_⟩
    rw [found_resolveAttribute_iff]
    exact (reaches_congr fun a => Scope.inForce_nil).1 hreaches
  · rintro ⟨hkind, haccepts, name, hname, hfound⟩
    obtain ⟨list, hlist, hlistKind, mark, hmark, rfl⟩ :=
      mem_markerNames.1 hname
    refine ⟨n, hkind, rfl, fun above x habove hne => ?_, haccepts,
      list, hlist, hlistKind, mark, hmark, ?_⟩
    · exact absurd (List.prefix_nil.1 habove) hne
    · rw [found_resolveAttribute_iff] at hfound
      exact (reaches_congr fun a => Scope.inForce_nil).2 hfound

private theorem selects_cons (hkind : n.kind ≠ .attributeList)
    (hc : n.children[i]? = some c) :
    m.Selects shape s n (i :: place) ↔
      m.Selects shape (s.enter n) c place := by
  have hat := Node.at?_cons hc
  have hnamed : ∀ x : Node, (∃ list ∈ x.children, list.kind = .attributeList ∧
      ∃ mark ∈ list.attributes,
        m.Reaches (s.InForce n (i :: place)) (unqualified mark.name)) ↔
      ∃ list ∈ x.children, list.kind = .attributeList ∧
        ∃ mark ∈ list.attributes,
          m.Reaches ((s.enter n).InForce c place) (unqualified mark.name) := by
    intro x
    simp only [reaches_congr fun a => Scope.inForce_cons hc]
  constructor
  · rintro ⟨x, hx, h⟩
    refine ⟨x, hx, (hat place) ▸ h.here, fun above y habove hne hy => ?_,
      h.accepted, (hnamed x).1 h.named⟩
    exact h.outside (i :: above) y (List.cons_prefix_cons.2 ⟨rfl, habove⟩)
      (by simpa using hne) ((hat above).trans hy)
  · rintro ⟨x, hx, h⟩
    refine ⟨x, hx, (hat place).trans h.here, fun above y habove hne hy => ?_,
      h.accepted, (hnamed x).2 h.named⟩
    rcases List.prefix_cons_iff.1 habove with rfl | ⟨rest, rfl, hrest⟩
    · obtain rfl : n = y := Option.some.inj hy
      exact hkind
    · exact h.outside rest y hrest (by simpa using hne) ((hat rest) ▸ hy)

private theorem not_selects_of_list (hkind : n.kind = .attributeList) :
    ¬ m.Selects shape s n place := by
  rintro ⟨x, hx, h⟩
  cases place with
  | nil =>
      obtain rfl : n = x := Option.some.inj h.here
      exact hx hkind
  | cons i place =>
      exact h.outside [] n List.nil_prefix (by simp) rfl hkind

/-! ## The scan -/

private theorem found_firstOf_iff {α : Type} {f : α → Resolution} {as : List α} :
    (Resolution.firstOf f as).found = true ↔ ∃ a ∈ as, (f a).found = true := by
  induction as with
  | nil => simp [Resolution.firstOf, Resolution.miss]
  | cons a as ih => simp [Resolution.firstOf, ih]

open Classical in
private theorem nodes_scanOwner (hkind : n.kind ≠ .attributeList) :
    (m.scanOwner shape (s.enter n) n).nodes =
      if m.Selects shape s n [] then [n] else [] := by
  rw [scanOwner, selects_nil, ← found_firstOf_iff]
  by_cases haccepts : shape.accepts n.kind = true <;>
    simp [haccepts, hkind]

private theorem scanNode_eq : m.scanNode shape s n =
    if n.kind = .attributeList then {}
    else m.scanOwner shape (s.enter n) n ++
      m.scanNodes shape (s.enter n) n.children := by
  obtain ⟨kind, name, usings, attributes, children⟩ := n
  rw [scanNode]

private theorem nodes_scanNodes (ns : List Node) :
    (m.scanNodes shape s ns).nodes =
      ns.flatMap fun c => (m.scanNode shape s c).nodes := by
  induction ns with
  | nil => rfl
  | cons c cs ih => rw [scanNodes, Scan.nodes_append, ih, List.flatMap_cons]

open Classical in
theorem map_some_scanNode (s : Scope) (n : Node) :
    (m.scanNode shape s n).nodes.map some =
      (n.places.filter fun place => m.Selects shape s n place).map n.at? := by
  induction n using Node.childInduction generalizing s with
  | step n ih =>
      rw [scanNode_eq]
      by_cases hkind : n.kind = .attributeList
      · rw [if_pos hkind, List.filter_eq_nil_iff.2]
        · rfl
        · simp [not_selects_of_list hkind]
      · have inside : ((Node.placesFrom 0 n.children).filter
            fun place => m.Selects shape s n place).map n.at? =
            n.children.flatMap fun c =>
              (m.scanNode shape (s.enter n) c).nodes.map some := by
          rw [Node.map_filter_placesFrom
            (Q := fun c place => m.Selects shape (s.enter n) c place)
            (g := fun c place => c.at? place)]
          · rw [List.flatMap_congr fun c hc => (ih c hc (s.enter n)).symm]
          · intro k c hc place
            rw [Nat.zero_add]
            exact ⟨decide_eq_decide.2 (selects_cons hkind hc),
              Node.at?_cons hc place⟩
        rw [if_neg hkind, Scan.nodes_append, nodes_scanOwner hkind,
          nodes_scanNodes, Node.places_eq, List.filter_cons, List.map_append,
          List.map_flatMap, ← inside]
        by_cases hself : m.Selects shape s n [] <;> simp [hself, Node.at?]

theorem Selects.mem_places {root : Node} (h : m.Selects shape s root place) :
    place ∈ root.places :=
  let ⟨n, _, hn⟩ := h
  Node.mem_places.2 ⟨n, hn.here⟩

open Classical in
/--
A scan lists the nodes at the marked places, attribute lists left out, each
place once and in document order.
-/
theorem scanFile_lists_marked (m : Marker) (shape : Shape)
    (globals : AliasSet) (root : Node) :
    ∃ places : List (List Nat), places.Pairwise (· < ·) ∧
      (∀ place, place ∈ places ↔ ∃ n, n.kind ≠ .attributeList ∧
        m.MarksAt shape { globals } root place n) ∧
      (m.scanFile shape globals root).nodes.map some =
        places.map root.at? := by
  refine ⟨root.places.filter fun place =>
      m.Selects shape { globals } root place,
    (Node.sorted_places root).filter _, fun place => ?_,
    map_some_scanNode { globals } root⟩
  rw [List.mem_filter, decide_eq_true_iff]
  exact ⟨fun h => h.2, fun h => ⟨Selects.mem_places h, h⟩⟩

def nestedList : Node :=
  .unit [] [(Node.attributeList []).marked ["M"]]

private theorem nestedList_marksAt :
    markerM.MarksAt (.oneOf [.attributeList]) { globals := {} } nestedList [0]
      ((Node.attributeList []).marked ["M"]) where
  here := rfl
  outside above x habove hne hx := by
    rcases List.prefix_cons_iff.1 habove with rfl | ⟨rest, rfl, hrest⟩
    · obtain rfl : nestedList = x := Option.some.inj hx
      decide
    · exact absurd (List.prefix_nil.1 hrest ▸ rfl) hne
  accepted := by decide
  named := by
    refine ⟨.attributeList [{ name := "M" }], by decide, rfl,
      { name := "M" }, by decide, "M", "M", .inl ?_, .inl rfl, .refl⟩
    decide +kernel

/-- Attribute lists must be left out: the walk does not search them at all. -/
theorem nestedList_unlisted :
    ¬ ∃ places : List (List Nat), places.Pairwise (· < ·) ∧
      (∀ place, place ∈ places ↔ ∃ n,
        markerM.MarksAt (.oneOf [.attributeList]) { globals := {} }
          nestedList place n) ∧
      (markerM.scanFile (.oneOf [.attributeList]) {} nestedList).nodes.map
        some = places.map nestedList.at? := by
  rintro ⟨places, -, hmem, hnodes⟩
  have hplace : [0] ∈ places := (hmem [0]).2 ⟨_, nestedList_marksAt⟩
  have hnone : (markerM.scanFile (.oneOf [.attributeList]) {}
      nestedList).nodes = [] := by
    decide +kernel
  rw [hnone, List.map_nil, eq_comm, List.map_eq_nil_iff] at hnodes
  simp [hnodes] at hplace

end Marker

end Regen
