import Regen.Proofs.Marker.Reach

/-!
# What resolution decides

A search without any bound on its depth comes to an end, whatever cycles the
aliases form, and its outcome is that of resolution.  The two attempts at an
attribute find the marker exactly where a chain of aliases leads from one of the
written forms to a name of the marker.  The order of the aliases, their number,
and the names that the search passes over make no difference.
-/

namespace Regen

open Relation

private theorem Resolution.firstOf_congr {α : Type} {f g : α → Resolution}
    {as : List α} (h : ∀ a ∈ as, f a = g a) : firstOf f as = firstOf g as := by
  induction as with
  | nil => rfl
  | cons a as ih =>
      rw [firstOf, firstOf, h a (by simp), ih fun b hb => h b (by simp [hb])]

private theorem Scope.leads_iff_mem {s : Scope} {a b : String} :
    s.Leads a b ↔ (⟨a, b⟩ : Alias) ∈ s.locals ++ s.globals.pairs := by
  rw [List.mem_append]
  exact or_congr mem_localTargets AliasSet.mem_targets

namespace Marker

/-! ## The search without a bound -/

/--
The search from `name` comes to an end with this outcome.  It goes down every
alias, not only those in front of the first success.
-/
inductive Search (m : Marker) (s : Scope) :
    (path : List String) → (suffixed : Bool) → (name : String) →
      Resolution → Prop where
  | hit {path : List String} {suffixed : Bool} {name : String}
      (h : written name suffixed ∈ m.literals) :
      Search m s path suffixed name .hit
  | crossed {path : List String} {suffixed : Bool} {name : String}
      (h : written name suffixed ∉ m.literals) (hpath : name ∈ path) :
      Search m s path suffixed name .miss
  | follow {path : List String} {suffixed : Bool} {name : String}
      {next : String → Resolution}
      (h : written name suffixed ∉ m.literals) (hpath : name ∉ path)
      (ends : ∀ b, s.Leads (written name suffixed) b →
        Search m s (name :: path) false b (next b)) :
      Search m s path suffixed name
        ((Resolution.firstOf next (s.localTargets (written name suffixed))).orElse
          fun _ => (Resolution.firstOf next
            (s.globals.targets (written name suffixed))).afterLookup
              (written name suffixed))

variable {m : Marker} {s : Scope} {fuel : Nat} {path : List String}
  {suffixed : Bool} {name : String}

theorem Search.unique {r r' : Resolution}
    (h : m.Search s path suffixed name r)
    (h' : m.Search s path suffixed name r') : r = r' := by
  induction h generalizing r' with
  | hit hkey =>
      cases h' with
      | hit => rfl
      | crossed hkey' => exact absurd hkey hkey'
      | follow hkey' => exact absurd hkey hkey'
  | crossed hkey hpath =>
      cases h' with
      | hit hkey' => exact absurd hkey' hkey
      | crossed => rfl
      | follow _ hpath' => exact absurd hpath hpath'
  | @follow path suffixed name next hkey hpath _ ih =>
      cases h' with
      | hit hkey' => exact absurd hkey' hkey
      | crossed _ hpath' => exact absurd hpath' hpath
      | @follow _ _ _ next' _ _ ends' =>
          have hlocal : ∀ b ∈ s.localTargets (written name suffixed),
              next b = next' b := fun b hb => ih b (.inl hb) (ends' b (.inl hb))
          have hglobal : ∀ b ∈ s.globals.targets (written name suffixed),
              next b = next' b := fun b hb => ih b (.inr hb) (ends' b (.inr hb))
          rw [Resolution.firstOf_congr hlocal, Resolution.firstOf_congr hglobal]

private theorem search_resolveWithin {names : List String}
    (room : Roomy s names fuel path) (hname : name ∈ names) :
    m.Search s path suffixed name
      (m.resolveWithin s fuel path suffixed name) := by
  induction fuel generalizing path suffixed name with
  | zero => exact room.fuel_pos.elim
  | succ fuel ih =>
      rw [resolveWithin]
      by_cases hkey : written name suffixed ∈ m.literals
      · simp only [if_pos hkey]
        exact .hit hkey
      · by_cases hpath : name ∈ path
        · simp only [if_neg hkey, if_pos hpath]
          exact .crossed hkey hpath
        · simp only [if_neg hkey, if_neg hpath]
          refine .follow hkey hpath fun b e => ?_
          exact ih (room.enter hname hpath)
            (room.closed (Scope.mem_targetNames e))

private theorem search_iff {r : Resolution} :
    m.Search s [] suffixed name r ↔ r = m.resolve s suffixed name := by
  have hends : m.Search s [] suffixed name (m.resolve s suffixed name) :=
    search_resolveWithin (roomy_depth s name) (by simp)
  constructor
  · intro h
    exact h.unique hends
  · rintro rfl
    exact hends

/-! ## Reachability -/

def Denotes (m : Marker) (literal : String) : Prop :=
  literal = m.name ∨
    literal = m.name ++ suffix ∧ ¬ suffix.toList <:+ m.name.toList

private theorem mem_literals_iff {literal : String} :
    literal ∈ m.literals ↔ m.Denotes literal := by
  unfold literals Denotes
  split
  · next h => simp [List.isSuffixOf_iff_suffix.1 h]
  · next h =>
    have hno : ¬ suffix.toList <:+ m.name.toList := fun hsuffix =>
      h (List.isSuffixOf_iff_suffix.2 hsuffix)
    simp [hno]

/--
Some chain of aliases leads from a written form of `name` to a name of the
marker.
-/
def Reaches (m : Marker) (inForce : Alias → Prop) (name : String) : Prop :=
  ∃ start literal, (start = name ∨ start = name ++ suffix) ∧
    m.Denotes literal ∧ ReflTransGen (fun a b => inForce ⟨a, b⟩) start literal

theorem found_resolveAttribute_iff :
    (m.resolveAttribute s name).found = true ↔
      m.Reaches (· ∈ s.locals ++ s.globals.pairs) name := by
  constructor
  · intro h
    obtain ⟨suffixed, literal, hl, chain⟩ := resolveAttribute_hit h
    refine ⟨written name suffixed, literal, ?_, mem_literals_iff.1 hl, ?_⟩
    · cases suffixed with
      | false => exact .inl rfl
      | true => exact .inr rfl
    · refine ReflTransGen.mono (fun a b e => Scope.leads_iff_mem.1 ?_) _ _ chain
      exact e.imp_right fun hglobal => hglobal.2
  · rintro ⟨start, literal, hstart, hl, chain⟩
    have hform : ∃ suffixed, start = written name suffixed := by
      rcases hstart with rfl | rfl
      · exact ⟨false, rfl⟩
      · exact ⟨true, rfl⟩
    obtain ⟨suffixed, rfl⟩ := hform
    by_contra hmiss
    have chain' : ReflTransGen s.Leads (written name suffixed) literal :=
      ReflTransGen.mono (fun a b e => Scope.leads_iff_mem.2 e) _ _ chain
    have hdismissed := resolveAttribute_miss (by simpa using hmiss) suffixed
      chain'
    exact hdismissed.1 (mem_literals_iff.2 hl)

/--
Both attempts at an attribute come to an end, and one of them succeeds exactly
where aliases lead from the name, with the suffix or without it, to the marker.
-/
theorem resolve_ends_and_decides (m : Marker) (s : Scope) (name : String) :
    (∀ suffixed r, m.Search s [] suffixed name r ↔
        r = m.resolve s suffixed name) ∧
      ((m.resolve s false name).found = true ∨
          (m.resolve s true name).found = true ↔
        m.Reaches (· ∈ s.locals ++ s.globals.pairs) name) := by
  refine ⟨fun suffixed r => search_iff, ?_⟩
  rw [← found_resolveAttribute_iff, resolveAttribute, Resolution.found_orElse,
    Bool.or_eq_true]

example : (resolveAttribute ⟨"Marker", by decide +kernel⟩
    ⟨[], ⟨[⟨"A", "B"⟩, ⟨"B", "A"⟩]⟩⟩ "A").found = false := by
  decide +kernel

end Marker

end Regen
