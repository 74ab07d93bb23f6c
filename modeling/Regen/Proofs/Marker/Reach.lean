import Mathlib.Data.List.Perm.Subperm
import Mathlib.Logic.Relation
import Regen.Marker.Resolve

/-!
# Resolution and reachability

The aliases in force at a place form a graph on names: an alias leads from its
name to its target.  Resolution searches this graph depth first and does not
enter a name twice on one path.  A success yields a chain of aliases whose
global links all start at names that were looked up; a failure has looked up
every name that can be reached.
-/

namespace Regen

open Relation

namespace Resolution

variable {α : Type}

theorem orElse_of_hit {a : Resolution} (b : Unit → Resolution)
    (h : a.found = true) : a.orElse b = a := by
  simp [orElse, h]

@[simp] theorem found_orElse (a : Resolution) (b : Unit → Resolution) :
    (a.orElse b).found = (a.found || (b ()).found) := by
  cases h : a.found <;> simp [orElse, h]

theorem consulted_orElse_of_miss {a : Resolution} (b : Unit → Resolution)
    (h : a.found = false) :
    (a.orElse b).consulted = a.consulted ++ (b ()).consulted := by
  simp [orElse, h]

private theorem firstOf_hit {f : α → Resolution} {as : List α}
    (h : (firstOf f as).found = true) :
    ∃ a ∈ as, (f a).found = true ∧
      (f a).consulted ⊆ (firstOf f as).consulted := by
  induction as with
  | nil => simp [firstOf, miss] at h
  | cons a as ih =>
      cases ha : (f a).found with
      | true =>
          refine ⟨a, by simp, ha, ?_⟩
          rw [firstOf, orElse_of_hit _ ha]
          exact List.Subset.refl _
      | false =>
          have hrest : (firstOf f as).found = true := by
            simpa [firstOf, ha] using h
          obtain ⟨b, hb, hfound, hsub⟩ := ih hrest
          refine ⟨b, by simp [hb], hfound, ?_⟩
          rw [firstOf, consulted_orElse_of_miss _ ha]
          exact List.Subset.trans hsub (List.subset_append_right _ _)

private theorem firstOf_miss {f : α → Resolution} {as : List α}
    (h : (firstOf f as).found = false) :
    ∀ a ∈ as, (f a).found = false ∧
      (f a).consulted ⊆ (firstOf f as).consulted := by
  induction as with
  | nil => simp
  | cons a as ih =>
      have hboth : (f a).found = false ∧ (firstOf f as).found = false := by
        simpa [firstOf] using h
      obtain ⟨ha, hrest⟩ := hboth
      rw [firstOf, consulted_orElse_of_miss _ ha]
      intro b hb
      rcases List.mem_cons.1 hb with rfl | hb
      · exact ⟨ha, List.subset_append_left _ _⟩
      · obtain ⟨hfound, hsub⟩ := ih hrest b hb
        exact ⟨hfound, List.Subset.trans hsub (List.subset_append_right _ _)⟩

end Resolution

namespace Scope

def Leads (s : Scope) (a b : String) : Prop :=
  b ∈ s.localTargets a ∨ b ∈ s.globals.targets a

/-- As `Leads`, with global aliases only for the names that were looked up. -/
def LeadsWithin (s : Scope) (looked : List String) (a b : String) : Prop :=
  b ∈ s.localTargets a ∨ a ∈ looked ∧ b ∈ s.globals.targets a

theorem LeadsWithin.mono {s : Scope} {looked looked' : List String}
    (h : looked ⊆ looked') {a b : String} (e : s.LeadsWithin looked a b) :
    s.LeadsWithin looked' a b :=
  e.imp_right fun ⟨ha, hb⟩ => ⟨h ha, hb⟩

/-- `b` can be reached from `a` without a name of `path` on the way. -/
inductive Trail (s : Scope) (path : List String) (a : String) :
    String → Prop where
  | here (h : a ∉ path) : Trail s path a a
  | next {b c : String} (t : Trail s path a b) (e : s.Leads b c)
      (h : c ∉ path) : Trail s path a c

private theorem Trail.leave {s : Scope} {path : List String} {a c : String}
    (t : s.Trail path a c) :
    c = a ∨ ∃ b, s.Leads a b ∧ s.Trail (a :: path) b c := by
  induction t with
  | here h => exact .inl rfl
  | @next b c t e h ih =>
      -- a trail that comes back to its start is told from there
      by_cases hc : c = a
      · exact .inl hc
      · have hout : c ∉ a :: path := by simp [hc, h]
        rcases ih with rfl | ⟨d, hd, t'⟩
        · exact .inr ⟨c, e, .here hout⟩
        · exact .inr ⟨d, hd, t'.next e hout⟩

private theorem trail_nil {s : Scope} {a b : String} (h : ReflTransGen s.Leads a b) :
    s.Trail [] a b := by
  induction h with
  | refl => exact .here (by simp)
  | tail _ e ih => exact ih.next e (by simp)

def targetNames (s : Scope) : List String :=
  s.locals.map (·.target) ++ s.globals.pairs.map (·.target)

theorem mem_targetNames {s : Scope} {a b : String} (h : s.Leads a b) :
    b ∈ s.targetNames := by
  rcases h with h | h
  · have hpair := mem_localTargets.1 h
    exact List.mem_append_left _ (List.mem_map_of_mem hpair)
  · have hpair := AliasSet.mem_targets.1 h
    exact List.mem_append_right _ (List.mem_map_of_mem hpair)

end Scope

namespace Marker

variable {m : Marker} {s : Scope} {fuel : Nat} {path : List String}
  {suffixed : Bool} {name : String}

/-! ## Success -/

/-- A chain of aliases leads from a written name to a name of the marker. -/
def Chained (m : Marker) (s : Scope) (looked : List String) (key : String) :
    Prop :=
  ∃ literal ∈ m.literals, ReflTransGen (s.LeadsWithin looked) key literal

theorem Chained.mono {looked looked' : List String} {key : String}
    (h : looked ⊆ looked') (c : m.Chained s looked key) :
    m.Chained s looked' key := by
  obtain ⟨literal, hl, chain⟩ := c
  exact ⟨literal, hl, ReflTransGen.mono (fun _ _ e => e.mono h) _ _ chain⟩

theorem Chained.head {looked : List String} {a b : String}
    (e : s.LeadsWithin looked a b) (c : m.Chained s looked b) :
    m.Chained s looked a := by
  obtain ⟨literal, hl, chain⟩ := c
  exact ⟨literal, hl, .head e chain⟩

private theorem resolveWithin_hit
    (h : (m.resolveWithin s fuel path suffixed name).found = true) :
    m.Chained s (m.resolveWithin s fuel path suffixed name).consulted
      (written name suffixed) := by
  induction fuel generalizing path suffixed name with
  | zero => simp [resolveWithin, Resolution.miss] at h
  | succ fuel ih =>
      rw [resolveWithin] at h ⊢
      simp only at h ⊢
      split at h
      · next hkey => exact ⟨_, hkey, .refl⟩
      · split at h
        · simp [Resolution.miss] at h
        · next hkey hpath =>
          simp only [if_neg hkey, if_neg hpath]
          set next := m.resolveWithin s fuel (name :: path) false
          set key := written name suffixed
          cases hlocal : (Resolution.firstOf next (s.localTargets key)).found with
          | true =>
              obtain ⟨b, hb, hfound, hsub⟩ := Resolution.firstOf_hit hlocal
              rw [Resolution.orElse_of_hit _ hlocal]
              exact .head (.inl hb) ((ih hfound).mono hsub)
          | false =>
              have hglobal : (Resolution.firstOf next
                  (s.globals.targets key)).found = true := by
                simpa [hlocal, Resolution.afterLookup] using h
              obtain ⟨b, hb, hfound, hsub⟩ := Resolution.firstOf_hit hglobal
              rw [Resolution.consulted_orElse_of_miss _ hlocal]
              refine .head (.inr ⟨by simp [Resolution.afterLookup], hb⟩)
                ((ih hfound).mono fun x hx => ?_)
              simp [Resolution.afterLookup, hsub hx]

theorem resolveAttribute_hit
    (h : (m.resolveAttribute s name).found = true) :
    ∃ suffixed, m.Chained s (m.resolveAttribute s name).consulted
      (written name suffixed) := by
  rw [resolveAttribute] at h ⊢
  cases hplain : (m.resolve s false name).found with
  | true =>
      rw [Resolution.orElse_of_hit _ hplain]
      exact ⟨false, resolveWithin_hit hplain⟩
  | false =>
      have hsuffixed : (m.resolve s true name).found = true := by
        simpa [hplain] using h
      rw [Resolution.consulted_orElse_of_miss _ hplain]
      exact ⟨true, (resolveWithin_hit hsuffixed).mono
        (List.subset_append_right _ _)⟩

/-! ## Failure -/

def Dismissed (m : Marker) (looked : List String) (name : String) : Prop :=
  name ∉ m.literals ∧ name ∈ looked

theorem Dismissed.mono {looked looked' : List String}
    (h : looked ⊆ looked') (d : m.Dismissed looked name) :
    m.Dismissed looked' name :=
  ⟨d.1, h d.2⟩

private theorem resolveWithin_succ_miss (hpath : name ∉ path)
    (h : (m.resolveWithin s (fuel + 1) path suffixed name).found = false) :
    let looked := (m.resolveWithin s (fuel + 1) path suffixed name).consulted
    m.Dismissed looked (written name suffixed) ∧
      ∀ b, s.Leads (written name suffixed) b →
        (m.resolveWithin s fuel (name :: path) false b).found = false ∧
        (m.resolveWithin s fuel (name :: path) false b).consulted ⊆ looked := by
  rw [resolveWithin] at h ⊢
  by_cases hkey : written name suffixed ∈ m.literals
  · simp [hkey, Resolution.hit] at h
  · simp only [if_neg hkey, if_neg hpath] at h ⊢
    set next := m.resolveWithin s fuel (name :: path) false
    set key := written name suffixed
    have hboth : (Resolution.firstOf next (s.localTargets key)).found = false ∧
        (Resolution.firstOf next (s.globals.targets key)).found = false := by
      simpa [Resolution.afterLookup] using h
    obtain ⟨hlocal, hglobal⟩ := hboth
    rw [Resolution.consulted_orElse_of_miss _ hlocal]
    refine ⟨⟨hkey, by simp [Resolution.afterLookup]⟩, fun b e => ?_⟩
    rcases e with hb | hb
    · obtain ⟨hfound, hsub⟩ := Resolution.firstOf_miss hlocal b hb
      exact ⟨hfound, List.Subset.trans hsub (List.subset_append_left _ _)⟩
    · obtain ⟨hfound, hsub⟩ := Resolution.firstOf_miss hglobal b hb
      refine ⟨hfound, fun x hx => ?_⟩
      simp [Resolution.afterLookup, hsub hx]

/--
`names` holds every name that the search may enter and is too short for a path
to use up the fuel.
-/
structure Roomy (s : Scope) (names : List String) (fuel : Nat)
    (path : List String) : Prop where
  closed : s.targetNames ⊆ names
  nodup : path.Nodup
  inside : path ⊆ names
  room : names.length < fuel + path.length

theorem Roomy.fuel_pos {names : List String} (h : Roomy s names 0 path) :
    False := by
  have hle : path.length ≤ names.length :=
    (List.subperm_of_subset h.nodup h.inside).length_le
  have := h.room
  omega

theorem Roomy.enter {names : List String} (h : Roomy s names (fuel + 1) path)
    (hname : name ∈ names) (hpath : name ∉ path) :
    Roomy s names fuel (name :: path) where
  closed := h.closed
  nodup := List.nodup_cons.2 ⟨hpath, h.nodup⟩
  inside := List.cons_subset.2 ⟨hname, h.inside⟩
  room := by
    have := h.room
    simp only [List.length_cons]
    omega

private theorem resolveWithin_miss {names : List String} (room : Roomy s names fuel path)
    (hname : name ∈ names)
    (h : (m.resolveWithin s fuel path false name).found = false) {x : String}
    (t : s.Trail path name x) :
    m.Dismissed (m.resolveWithin s fuel path false name).consulted x := by
  induction fuel generalizing path name with
  | zero => exact room.fuel_pos.elim
  | succ fuel ih =>
      by_cases hpath : name ∈ path
      · -- a trail never starts on the path
        have hout : name ∉ path := by
          clear ih h
          induction t with
          | here h => exact h
          | next _ _ _ ih => exact ih
        exact absurd hpath hout
      · obtain ⟨hself, hnext⟩ := resolveWithin_succ_miss hpath h
        rcases t.leave with rfl | ⟨b, e, t'⟩
        · exact hself
        · obtain ⟨hfound, hsub⟩ := hnext b e
          have hb : b ∈ names := room.closed (Scope.mem_targetNames e)
          exact (ih (room.enter hname hpath) hb hfound t').mono hsub

theorem roomy_depth (s : Scope) (name : String) :
    Roomy s (name :: s.targetNames) s.depth [] where
  closed := List.subset_cons_self _ _
  nodup := List.nodup_nil
  inside := List.nil_subset _
  room := by
    simp only [Scope.targetNames, Scope.depth, List.length_cons,
      List.length_append, List.length_map, List.length_nil]
    omega

private theorem resolve_miss (h : (m.resolve s false name).found = false) {x : String}
    (r : ReflTransGen s.Leads name x) :
    m.Dismissed (m.resolve s false name).consulted x :=
  resolveWithin_miss (roomy_depth s name) (by simp) h (Scope.trail_nil r)

private theorem resolve_suffixed_miss (h : (m.resolve s true name).found = false) :
    m.Dismissed (m.resolve s true name).consulted (written name true) ∧
      ∀ b x, s.Leads (written name true) b → s.Trail [name] b x →
        m.Dismissed (m.resolve s true name).consulted x := by
  have room := roomy_depth s name
  rw [resolve, Scope.depth] at h ⊢
  rw [Scope.depth] at room
  obtain ⟨hself, hnext⟩ := resolveWithin_succ_miss List.not_mem_nil h
  refine ⟨hself, fun b x e t => ?_⟩
  obtain ⟨hfound, hsub⟩ := hnext b e
  have hb : b ∈ name :: s.targetNames := room.closed (Scope.mem_targetNames e)
  exact (resolveWithin_miss (room.enter (by simp) (by simp)) hb hfound t).mono
    hsub

/--
If both attempts fail, every name that either of the written forms leads to was
looked up, and none of them is a name of the marker.
-/
theorem resolveAttribute_miss
    (h : (m.resolveAttribute s name).found = false) (suffixed : Bool)
    {x : String} (r : ReflTransGen s.Leads (written name suffixed) x) :
    m.Dismissed (m.resolveAttribute s name).consulted x := by
  have hboth : (m.resolve s false name).found = false ∧
      (m.resolve s true name).found = false := by
    simpa [resolveAttribute] using h
  obtain ⟨hplain, hsuffixed⟩ := hboth
  rw [resolveAttribute, Resolution.consulted_orElse_of_miss _ hplain]
  have plain : ∀ {y}, ReflTransGen s.Leads name y → m.Dismissed
      ((m.resolve s false name).consulted ++ (m.resolve s true name).consulted)
      y := fun r =>
    (resolve_miss hplain r).mono (List.subset_append_left _ _)
  cases suffixed with
  | false => exact plain r
  | true =>
      obtain ⟨hself, hrest⟩ := resolve_suffixed_miss hsuffixed
      -- what comes after `name` itself is covered by the plain attempt
      have split : ReflTransGen s.Leads name x ∨ x = written name true ∨
          ∃ b, s.Leads (written name true) b ∧ s.Trail [name] b x := by
        induction r with
        | refl => exact .inr (.inl rfl)
        | @tail y z _ e ih =>
            by_cases hz : z = name
            · exact .inl (hz ▸ .refl)
            · have hout : z ∉ [name] := by simp [hz]
              rcases ih with r | rfl | ⟨b, hb, t⟩
              · exact .inl (r.tail e)
              · exact .inr (.inr ⟨z, e, .here hout⟩)
              · exact .inr (.inr ⟨b, hb, t.next e hout⟩)
      rcases split with r | rfl | ⟨b, hb, t⟩
      · exact plain r
      · exact hself.mono (List.subset_append_right _ _)
      · exact (hrest b x hb t).mono (List.subset_append_right _ _)

end Marker

end Regen
