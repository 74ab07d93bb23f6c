import Mathlib.Data.List.Forall2
import Regen.Proofs.Table.Pairing

/-!
# What becomes of every value

A comparison pairs previous values with candidates, each at most once.  It has
one live entry for each candidate, in the order of the candidates, and after
them one removed entry for each previous value without a partner, in the order
of the previous values.  Which ones are partners is all that tells a comparison
by position from a comparison by key; neither asks anything of the equality.
-/

namespace Regen

open List (Forall₂)

namespace Table

variable {α κ : Type}

/--
The table is made of pairs, of candidates without a partner and of previous
values without one.  Here `partners j i` says that the previous value at `j`
belongs to the candidate at `i`.
-/
structure Partitions (t : Table α) (partners : Nat → Nat → Prop)
    (eq : α → α → Bool) (previous : Table α) (candidates : List α) : Prop where
  left_unique : ∀ {j k i}, partners j i → partners k i → j = k
  right_unique : ∀ {j i k}, partners j i → partners j k → i = k
  paired : ∀ {j i}, partners j i → ∃ old c,
    previous.values[j]? = some old ∧ candidates[i]? = some c ∧
      t.live[i]? = some (if eq old c then ⟨old, .cached⟩ else ⟨c, .modified⟩)
  alone : ∀ {i c}, candidates[i]? = some c → (∀ j, ¬ partners j i) →
    t.live[i]? = some ⟨c, .added⟩
  length_live : t.live.length = candidates.length
  removed : ∃ places : List Nat, places.Pairwise (· < ·) ∧
    (∀ j, j ∈ places ↔ j < previous.values.length ∧ ∀ i, ¬ partners j i) ∧
    ∃ gone : List α, places.map (previous.values[·]?) = gone.map some ∧
      t.entries = t.live ++ gone.map fun v => ⟨v, .removed⟩

variable {eq : α → α → Bool} {previous : Table α} {candidates : List α}

/-! ## By position -/

private theorem diffValues_eq (olds cs : List α) :
    diffValues eq olds cs =
      List.zipWith (Entry.ofPair eq) olds cs ++
        (cs.drop olds.length).map Entry.ofAdded ++
          (olds.drop cs.length).map Entry.ofRemoved := by
  induction cs generalizing olds with
  | nil => simp [diffValues]
  | cons c cs ih =>
      cases olds with
      | nil => simp [diffValues_nil]
      | cons old olds => simp [diffValues, ih olds]

private theorem live_diff :
    (diff eq previous candidates).live =
      List.zipWith (Entry.ofPair eq) previous.values candidates ++
        (candidates.drop previous.values.length).map Entry.ofAdded := by
  rw [diff, diffValues_eq]
  refine live_append_map_ofRemoved (fun e he => ?_) _
  rcases List.mem_append.1 he with he | he
  · obtain ⟨i, hi, rfl⟩ := List.getElem_of_mem he
    simp
  · obtain ⟨c, -, rfl⟩ := List.mem_map.1 he
    rfl

private theorem entries_diff :
    (diff eq previous candidates).entries =
      (diff eq previous candidates).live ++
        (previous.values.drop candidates.length).map Entry.ofRemoved := by
  rw [live_diff]
  exact diffValues_eq previous.values candidates

private theorem partitions_diff :
    (diff eq previous candidates).Partitions
      (fun j i => j = i ∧ i < previous.values.length ∧ i < candidates.length)
      eq previous candidates where
  left_unique := by
    rintro j k i ⟨rfl, -⟩ ⟨rfl, -⟩
    rfl
  right_unique := by
    rintro j i k ⟨rfl, -⟩ ⟨rfl, -⟩
    rfl
  paired := by
    rintro j i ⟨rfl, hold, hc⟩
    refine ⟨_, _, List.getElem?_eq_getElem hold, List.getElem?_eq_getElem hc, ?_⟩
    have hzip : j < (List.zipWith (Entry.ofPair eq) previous.values
        candidates).length := by
      rw [List.length_zipWith]
      exact Nat.lt_min.2 ⟨hold, hc⟩
    rw [live_diff, List.getElem?_append_left hzip,
      List.getElem?_eq_getElem hzip, List.getElem_zipWith]
    rfl
  alone := by
    intro i c hc halone
    have hi : i < candidates.length := (List.getElem?_eq_some_iff.1 hc).1
    have hbeyond : previous.values.length ≤ i := by
      by_contra hlt
      exact halone i ⟨rfl, by omega, hi⟩
    rw [live_diff, List.getElem?_append_right (by simp; omega), List.getElem?_map,
      List.getElem?_drop]
    have hplace : previous.values.length + (i - (List.zipWith (Entry.ofPair eq)
        previous.values candidates).length) = i := by
      simp
      omega
    rw [hplace, hc]
    rfl
  length_live := by
    rw [live_diff]
    simp
    omega
  removed := by
    refine ⟨List.range' candidates.length
      (previous.values.length - candidates.length), List.pairwise_lt_range',
      fun j => ?_, previous.values.drop candidates.length, ?_, entries_diff⟩
    · rw [List.mem_range'_1]
      constructor
      · intro hj
        exact ⟨by omega, fun i ⟨hji, _, hi⟩ => by omega⟩
      · rintro ⟨hj, halone⟩
        have := halone j
        omega
    · refine List.ext_getElem (by simp) fun k hk _ => ?_
      rw [List.length_map, List.length_range'] at hk
      have hplace : candidates.length + k < previous.values.length := by omega
      simp only [List.getElem_map, List.getElem_range', List.getElem_drop,
        Nat.one_mul, List.getElem?_eq_getElem hplace]

theorem diff_of_forall₂
    (h : Forall₂ (fun old c => eq old c = true) previous.values candidates) :
    diff eq previous candidates = previous.settled := by
  refine congrArg Table.mk ?_
  generalize previous.values = olds at h ⊢
  induction h with
  | nil => rfl
  | cons heq _ ih =>
      rw [diffValues, ih, Entry.ofPair, if_pos heq]
      rfl

private theorem forall₂_eq_values_diff (refl : ∀ v, eq v v = true) :
    Forall₂ (fun v c => eq v c = true) (diff eq previous candidates).values
      candidates := by
  rw [diff]
  generalize previous.values = olds
  induction candidates generalizing olds with
  | nil => simp [diffValues]
  | cons c cs ih =>
      cases olds with
      | nil =>
          rw [diffValues_nil, values_map_ofAdded]
          exact List.forall₂_same.2 fun v _ => refl v
      | cons old olds =>
          rw [values, live_diffValues_cons, List.map_cons, Entry.value_ofPair]
          refine .cons ?_ (ih olds)
          split
          · next heq => exact heq
          · exact refl c

/--
A comparison by position partitions what it compares.  Where every value is
equal to itself it converges: the same candidates again change nothing, and the
values that stand already are all cached.
-/
theorem diff_partitions_and_converges (eq : α → α → Bool) (previous : Table α)
    (candidates : List α) :
    (diff eq previous candidates).Partitions
        (fun j i => j = i ∧ i < previous.values.length ∧ i < candidates.length)
        eq previous candidates ∧
      ((∀ v, eq v v = true) →
        (diff eq (diff eq previous candidates) candidates).isCached = true ∧
        (diff eq (diff eq previous candidates) candidates).values =
          (diff eq previous candidates).values ∧
        diff eq previous previous.values = previous.settled) := by
  refine ⟨partitions_diff, fun refl => ?_⟩
  have hagain : diff eq (diff eq previous candidates) candidates =
      (diff eq previous candidates).settled :=
    diff_of_forall₂ (forall₂_eq_values_diff refl)
  rw [hagain]
  exact ⟨isCached_settled _, values_settled _,
    diff_of_forall₂ (List.forall₂_same.2 fun v _ => refl v)⟩

/-! ## By key -/

/-- The value stands at the place, and none of its key stands before it. -/
def FirstOfKey (key : α → κ) (values : List α) (i : Nat) (v : α) : Prop :=
  values[i]? = some v ∧ key v ∉ (values.take i).map key

/-- By key, partners are the first ones of their common key on either side. -/
def MeetByKey (key : α → κ) (olds candidates : List α) (j i : Nat) : Prop :=
  ∃ old c, FirstOfKey key olds j old ∧ FirstOfKey key candidates i c ∧
    key old = key c

variable {key : α → κ} {values : List α} {v w : α}

private theorem FirstOfKey.place_le {i k : Nat} (hv : values[i]? = some v)
    (hw : FirstOfKey key values k w) (h : key v = key w) : k ≤ i := by
  by_contra hlt
  refine hw.2 (h ▸ List.mem_map_of_mem (List.mem_of_getElem? (i := i) ?_))
  rw [List.getElem?_take_of_lt (by omega), hv]

private theorem FirstOfKey.place_eq {i k : Nat} (hv : FirstOfKey key values i v)
    (hw : FirstOfKey key values k w) (h : key v = key w) : i = k :=
  Nat.le_antisymm (hv.place_le hw.1 h.symm) (hw.place_le hv.1 h)

variable [DecidableEq κ]

theorem FirstOfKey.find? {i : Nat} (h : FirstOfKey key values i v) :
    values.find? (key · = key v) = some v := by
  obtain ⟨hi, rfl⟩ := List.getElem?_eq_some_iff.1 h.1
  refine List.find?_eq_some_iff_getElem.2 ⟨by simp, i, hi, rfl, fun j hj => ?_⟩
  have hother : key values[j] ≠ key values[i] := by
    intro hkey
    have := h.place_le (List.getElem?_eq_getElem (by omega)) hkey
    omega
  simpa using hother

private theorem exists_firstOfKey {k : κ} (h : values.find? (key · = k) = some v) :
    key v = k ∧ ∃ i, FirstOfKey key values i v := by
  obtain ⟨hkey, i, hi, rfl, hbefore⟩ := List.find?_eq_some_iff_getElem.1 h
  simp only [decide_eq_true_eq] at hkey
  refine ⟨hkey, i, List.getElem?_eq_getElem hi, fun hmem => ?_⟩
  obtain ⟨w, hw, hkeys⟩ := List.mem_map.1 hmem
  obtain ⟨j, hj, rfl⟩ := List.mem_take_iff_getElem.1 hw
  have := hbefore j (by omega)
  simp [hkeys, hkey] at this

private theorem exists_firstOfKey_of_mem {k : κ} (h : k ∈ values.map key) :
    ∃ i v, FirstOfKey key values i v ∧ key v = k := by
  obtain ⟨w, hw, rfl⟩ := List.mem_map.1 h
  have hsome : (values.find? (key · = key w)).isSome = true :=
    List.find?_isSome.2 ⟨w, hw, by simp⟩
  obtain ⟨v, hv⟩ := Option.isSome_iff_exists.1 hsome
  obtain ⟨hkey, i, hi⟩ := exists_firstOfKey hv
  exact ⟨i, v, hi, hkey⟩

private theorem getElem?_pairByKey_of_find? {olds cs : List α} {taken : List κ} {i : Nat}
    {old c : α} (hc : FirstOfKey key cs i c) (hfresh : key c ∉ taken)
    (hold : olds.find? (key · = key c) = some old) :
    (pairByKey key eq olds taken cs)[i]? = some (Entry.ofPair eq old c) := by
  induction cs generalizing taken i with
  | nil => simp [FirstOfKey] at hc
  | cons d cs ih =>
      cases i with
      | zero =>
          obtain rfl : d = c := Option.some.inj hc.1
          rw [pairByKey, if_neg hfresh, hold]
          rfl
      | succ i =>
          obtain ⟨hc, hnew⟩ := hc
          rw [List.take_succ_cons, List.map_cons, List.mem_cons, not_or] at hnew
          refine ih ⟨hc, hnew.2⟩ ?_
          rw [List.mem_cons, not_or]
          exact ⟨hnew.1, hfresh⟩

private theorem getElem?_pairByKey_of_alone {olds cs : List α} {taken : List κ} {i : Nat}
    {c : α} (hc : cs[i]? = some c)
    (halone : key c ∈ taken ∨ key c ∈ (cs.take i).map key ∨
      olds.find? (key · = key c) = none) :
    (pairByKey key eq olds taken cs)[i]? = some (Entry.ofAdded c) := by
  induction cs generalizing taken i with
  | nil => simp at hc
  | cons d cs ih =>
      cases i with
      | zero =>
          obtain rfl : d = c := Option.some.inj hc
          have hnone : (if key d ∈ taken then none
              else olds.find? (key · = key d)) = none := by
            split
            · rfl
            · next hfresh => simpa [hfresh] using halone
          rw [pairByKey, hnone]
          rfl
      | succ i =>
          refine ih hc ?_
          rw [List.take_succ_cons, List.map_cons, List.mem_cons] at halone
          rw [List.mem_cons]
          tauto

private theorem length_pairByKey (olds : List α) (taken : List κ) (cs : List α) :
    (pairByKey key eq olds taken cs).length = cs.length := by
  induction cs generalizing taken with
  | nil => rfl
  | cons c cs ih => rw [pairByKey, List.length_cons, ih, List.length_cons]

private theorem unpaired_places (wanted seen : List κ) (olds : List α) :
    ∃ places : List Nat, places.Pairwise (· < ·) ∧
      (∀ j, j ∈ places ↔ ∃ old, olds[j]? = some old ∧
        ¬ (key old ∈ wanted ∧ key old ∉ seen ∧
          key old ∉ (olds.take j).map key)) ∧
      places.map (olds[·]?) = (unpaired key wanted seen olds).map some := by
  induction olds generalizing seen with
  | nil => exact ⟨[], .nil, by simp, rfl⟩
  | cons old olds ih =>
      obtain ⟨places, hsorted, hplaces, hgone⟩ := ih (key old :: seen)
      -- all places move up by one; the first one may come in addition
      have hmoved : (places.map (· + 1)).Pairwise (· < ·) :=
        List.pairwise_map.2 (hsorted.imp fun h => Nat.succ_lt_succ h)
      have hvalues : (places.map (· + 1)).map ((old :: olds)[·]?) =
          (unpaired key wanted (key old :: seen) olds).map some := by
        rw [← hgone, List.map_map]
        rfl
      have hlater : ∀ j, j + 1 ∈ places.map (· + 1) ↔
          ∃ v, (old :: olds)[j + 1]? = some v ∧
            ¬ (key v ∈ wanted ∧ key v ∉ seen ∧
              key v ∉ ((old :: olds).take (j + 1)).map key) := by
        intro j
        simp only [List.mem_map, Nat.add_right_cancel_iff, exists_eq_right,
          hplaces, List.getElem?_cons_succ, List.take_succ_cons, List.map_cons,
          List.mem_cons, not_or]
        refine exists_congr fun v => and_congr_right fun _ => ?_
        tauto
      rw [unpaired]
      split
      · next hpaired =>
        refine ⟨_, hmoved, fun j => ?_, hvalues⟩
        cases j with
        | zero => simp [hpaired]
        | succ j => exact hlater j
      · next halone =>
        refine ⟨0 :: places.map (· + 1), ?_, fun j => ?_, ?_⟩
        · exact List.pairwise_cons.2 ⟨by simp, hmoved⟩
        · cases j with
          | zero => simpa using halone
          | succ j => simpa using hlater j
        · rw [List.map_cons, List.map_cons, hvalues]
          rfl

/--
A comparison by key partitions what it compares, however often a key comes and
whatever the equality.
-/
theorem diffOn_partitions (key : α → κ) (eq : α → α → Bool) (previous : Table α)
    (candidates : List α) :
    (diffOn key eq previous candidates).Partitions
      (MeetByKey key previous.values candidates) eq previous candidates where
  left_unique := by
    rintro j k i ⟨old, c, hold, hc, hkey⟩ ⟨old', c', hold', hc', hkey'⟩
    obtain rfl : c = c' := Option.some.inj (hc.1.symm.trans hc'.1)
    exact hold.place_eq hold' (hkey.trans hkey'.symm)
  right_unique := by
    rintro j i k ⟨old, c, hold, hc, hkey⟩ ⟨old', c', hold', hc', hkey'⟩
    obtain rfl : old = old' := Option.some.inj (hold.1.symm.trans hold'.1)
    exact hc.place_eq hc' (hkey.symm.trans hkey')
  paired := by
    rintro j i ⟨old, c, hold, hc, hkey⟩
    refine ⟨old, c, hold.1, hc.1, ?_⟩
    rw [live_diffOn]
    exact getElem?_pairByKey_of_find? hc (by simp) (hkey ▸ hold.find?)
  alone := by
    intro i c hc halone
    rw [live_diffOn]
    refine getElem?_pairByKey_of_alone hc (.inr ?_)
    by_contra hpair
    rw [not_or] at hpair
    obtain ⟨old, hfind⟩ := Option.ne_none_iff_exists'.1 hpair.2
    obtain ⟨hkey, j, hold⟩ := exists_firstOfKey hfind
    exact halone j ⟨old, c, hold, ⟨hc, hpair.1⟩, hkey⟩
  length_live := by rw [live_diffOn, length_pairByKey]
  removed := by
    obtain ⟨places, hsorted, hplaces, hgone⟩ :=
      @unpaired_places α κ key _ (candidates.map key) [] previous.values
    refine ⟨places, hsorted, fun j => ?_, _, hgone, by rw [live_diffOn]; rfl⟩
    rw [hplaces]
    constructor
    · rintro ⟨old, hold, halone⟩
      refine ⟨(List.getElem?_eq_some_iff.1 hold).1, ?_⟩
      rintro i ⟨old', c, hold', hc, hkey⟩
      obtain rfl : old = old' := Option.some.inj (hold.symm.trans hold'.1)
      have hwanted : key old ∈ candidates.map key :=
        hkey ▸ List.mem_map_of_mem (List.mem_of_getElem? hc.1)
      exact halone ⟨hwanted, by simp, hold'.2⟩
    · rintro ⟨hj, halone⟩
      refine ⟨_, List.getElem?_eq_getElem hj, fun ⟨hwanted, _, hfirst⟩ => ?_⟩
      obtain ⟨i, c, hc, hkey⟩ := exists_firstOfKey_of_mem hwanted
      exact halone i
        ⟨_, c, ⟨List.getElem?_eq_getElem hj, hfirst⟩, hc, hkey.symm⟩

end Table

end Regen
