import Mathlib.Data.List.Nodup
import Regen.Run.Generator

/-!
# Looking up what was stored

Look-ups after many tables were stored at once, and look-ups at a type that
read what is missing, or is of another type, as nothing at all.
-/

namespace Regen

namespace Store

variable {τ : Type} {C : τ → Type}

/-! ## Distinct keys -/

def Distinct (s : Store C) : Prop :=
  (s.tables.map (·.1)).Nodup

theorem Distinct.empty : (empty : Store C).Distinct :=
  List.nodup_nil

private theorem map_fst_upsert (key : TableKey) (t : AnyTable C)
    (l : List (TableKey × AnyTable C)) :
    (upsert (·.1 == key) (key, t) l).map (·.1) =
      if key ∈ l.map (·.1) then l.map (·.1) else l.map (·.1) ++ [key] := by
  induction l with
  | nil => simp [upsert]
  | cons e l ih =>
      by_cases he : e.1 = key
      · simp [upsert, he]
      · have hb : (e.1 == key) = false := by simpa using he
        rw [upsert, if_neg (by simp [hb]), List.map_cons, List.map_cons, ih]
        by_cases hl : key ∈ l.map (·.1)
        · rw [if_pos hl, if_pos (List.mem_cons_of_mem _ hl)]
        · rw [if_neg hl, if_neg (by simpa [Ne.symm he] using hl),
            List.cons_append]

theorem Distinct.set {s : Store C} (h : s.Distinct) (key : TableKey)
    (t : AnyTable C) : (s.set key t).Distinct := by
  rw [Distinct, Store.set, map_fst_upsert]
  split
  · exact h
  · next hkey =>
    rw [List.nodup_append]
    refine ⟨h, by simp, ?_⟩
    rintro k hk _ (_ | ⟨_, ⟨⟩⟩) rfl
    exact hkey hk

/-! ## Storing many tables -/

def setEach (s : Store C) (new : List (TableKey × AnyTable C)) : Store C :=
  new.foldl (fun s (key, t) => s.set key t) s

private theorem Distinct.setEach {s : Store C} (h : s.Distinct)
    (new : List (TableKey × AnyTable C)) : (s.setEach new).Distinct := by
  induction new generalizing s with
  | nil => exact h
  | cons e new ih => exact ih (h.set e.1 e.2)

private theorem find?_setEach {s : Store C} {new : List (TableKey × AnyTable C)}
    (h : (new.map (·.1)).Nodup) (k : TableKey) :
    (s.setEach new).find? k = (new.lookup k).or (s.find? k) := by
  induction new generalizing s with
  | nil => rfl
  | cons e new ih =>
      obtain ⟨key, t⟩ := e
      obtain ⟨hfirst, hrest⟩ := List.nodup_cons.1 h
      rw [setEach, List.foldl_cons]
      change ((s.set key t).setEach new).find? k = _
      rw [ih hrest, find?_set, List.lookup_cons]
      by_cases hk : k = key
      · subst hk
        have hnone : new.lookup k = none := by
          rw [List.lookup_eq_none_iff]
          intro e he
          simp only [bne_iff_ne, ne_eq]
          intro heq
          exact hfirst (heq ▸ List.mem_map.2 ⟨e, he, rfl⟩)
        simp [hnone]
      · have hb : (k == key) = false := by simpa using hk
        simp [hk, hb]

private theorem carry_eq_setEach (previous : Store C) (g : GraphId) (step : StepId)
    (s : Store C) :
    previous.carry g step s =
      s.setEach ((previous.tables.filter fun e =>
        e.1.graph = g ∧ e.1.step = step).map fun e => (e.1, e.2.settled)) := by
  rw [setEach, List.foldl_map, carry]

private theorem lookup_settled (l : List (TableKey × AnyTable C)) (g : GraphId)
    (step : StepId) (k : TableKey) :
    ((l.filter fun e => e.1.graph = g ∧ e.1.step = step).map
        fun e => (e.1, e.2.settled)).lookup k =
      if k.graph = g ∧ k.step = step then (l.lookup k).map (·.settled)
      else none := by
  induction l with
  | nil => simp
  | cons e l ih =>
      obtain ⟨key, t⟩ := e
      by_cases hkey : key.graph = g ∧ key.step = step
      · rw [List.filter_cons_of_pos (by simpa using hkey), List.map_cons,
          List.lookup_cons, List.lookup_cons, ih]
        by_cases hk : k = key
        · subst hk
          simp [hkey]
        · have hb : (k == key) = false := by simpa using hk
          simp [hb]
      · rw [List.filter_cons_of_neg (by simpa using hkey), ih,
          List.lookup_cons]
        split
        · next hstep =>
          have hb : (k == key) = false := by
            simp only [beq_eq_false_iff_ne, ne_eq]
            rintro rfl
            exact hkey hstep
          simp [hb]
        · rfl

theorem find?_carry {previous : Store C} (h : previous.Distinct) (g : GraphId)
    (step : StepId) (s : Store C) (k : TableKey) :
    (previous.carry g step s).find? k =
      if k.graph = g ∧ k.step = step then
        ((previous.find? k).map (·.settled)).or (s.find? k)
      else s.find? k := by
  have hnodup : (((previous.tables.filter fun e =>
      e.1.graph = g ∧ e.1.step = step).map
        fun e => (e.1, e.2.settled)).map (·.1)).Nodup := by
    rw [List.map_map]
    exact (List.filter_sublist.map _).nodup h
  rw [carry_eq_setEach, find?_setEach hnodup, lookup_settled]
  split <;> rfl

theorem Distinct.carry {s : Store C} (h : s.Distinct) (previous : Store C)
    (g : GraphId) (step : StepId) : (previous.carry g step s).Distinct := by
  rw [carry_eq_setEach]
  exact h.setEach _

/-! ## Reading at a type -/

variable [DecidableEq τ]

def at? (s : Store C) (type : τ) (key : TableKey) : Option (Table (C type)) :=
  (s.find? key).bind (·.at? type)

/-- As `at?`; what is not there reads as the empty table. -/
def read (s : Store C) (type : τ) (key : TableKey) : Table (C type) :=
  (s.at? type key).getD .empty

theorem at?_eq_some {s : Store C} {type : τ} {key : TableKey}
    {t : Table (C type)} :
    s.at? type key = some t ↔ s.find? key = some ⟨type, t⟩ := by
  rw [at?, Option.bind_eq_some_iff]
  constructor
  · rintro ⟨⟨type', t'⟩, hfind, hat⟩
    rw [AnyTable.at?] at hat
    split at hat
    · next htype =>
      obtain rfl : type' = type := htype
      rw [hfind]
      obtain rfl := Option.some.inj hat
      rfl
    · contradiction
  · intro hfind
    exact ⟨_, hfind, AnyTable.at?_self _ _⟩

theorem get_eq {s : Store C} {type : τ} {key : TableKey}
    (h : ∀ t, s.find? key = some t → t.type = type) :
    s.get type key = .ok (s.at? type key) := by
  rw [get, at?]
  cases hfind : s.find? key with
  | none => rfl
  | some t =>
      obtain ⟨type', t⟩ := t
      obtain rfl : type' = type := h _ hfind
      simp

theorem getD_eq {s : Store C} {type : τ} {key : TableKey}
    (h : ∀ t, s.find? key = some t → t.type = type) :
    s.getD type key = .ok (s.read type key) := by
  rw [getD, get_eq h]
  rfl

private theorem at?_congr {s u : Store C} {key : TableKey}
    (h : s.find? key = u.find? key) (type : τ) :
    s.at? type key = u.at? type key := by
  rw [at?, at?, h]

theorem read_congr {s u : Store C} {key : TableKey}
    (h : s.find? key = u.find? key) (type : τ) :
    s.read type key = u.read type key := by
  rw [read, read, at?_congr h]

end Store

namespace RunContext

variable {U : Type}

private theorem setAll_eq_setEach (g : GraphId) (step : StepId)
    (new : List (Part × AnyTable (Carrier U))) (s : Store (Carrier U)) :
    setAll g step new s =
      s.setEach (new.map fun e => (⟨g, step, e.1⟩, e.2)) := by
  rw [Store.setEach, List.foldl_map, setAll]

private theorem lookup_map_key {α : Type} (g : GraphId) (step : StepId)
    (new : List (Part × α)) (k : TableKey) :
    (new.map fun e => ((⟨g, step, e.1⟩ : TableKey), e.2)).lookup k =
      if k.graph = g ∧ k.step = step then new.lookup k.part else none := by
  obtain ⟨g', step', part⟩ := k
  induction new with
  | nil => simp
  | cons e new ih =>
      rw [List.map_cons, List.lookup_cons, ih, List.lookup_cons]
      by_cases hk : g' = g ∧ step' = step
      · obtain ⟨rfl, rfl⟩ := hk
        by_cases hpart : part = e.1
        · simp [hpart]
        · have hb : (part == e.1) = false := by simpa using hpart
          have hb' : ((⟨g', step', part⟩ : TableKey) == ⟨g', step', e.1⟩)
              = false := by
            simpa using hpart
          simp [hb, hb']
      · have hb : ((⟨g', step', part⟩ : TableKey) == ⟨g, step, e.1⟩)
            = false := by
          simp only [beq_eq_false_iff_ne, ne_eq, TableKey.mk.injEq]
          exact fun h => hk ⟨h.1, h.2.1⟩
        simp [hk, hb]

theorem find?_setAll {g : GraphId} {step : StepId}
    {new : List (Part × AnyTable (Carrier U))} (h : (new.map (·.1)).Nodup)
    (s : Store (Carrier U)) (k : TableKey) :
    (setAll g step new s).find? k =
      if k.graph = g ∧ k.step = step then
        (new.lookup k.part).or (s.find? k)
      else s.find? k := by
  have hnodup : ((new.map fun e =>
      ((⟨g, step, e.1⟩ : TableKey), e.2)).map (·.1)).Nodup := by
    rw [List.map_map]
    have hparts := List.Nodup.map (f := fun part : Part =>
      (⟨g, step, part⟩ : TableKey)) (fun _ _ heq => by simpa using heq) h
    rwa [List.map_map] at hparts
  rw [setAll_eq_setEach, Store.find?_setEach hnodup, lookup_map_key]
  split <;> rfl

theorem distinct_setAll {s : Store (Carrier U)} (h : s.Distinct) (g : GraphId)
    (step : StepId) (new : List (Part × AnyTable (Carrier U))) :
    (setAll g step new s).Distinct := by
  rw [setAll_eq_setEach]
  exact h.setEach _

end RunContext

end Regen
