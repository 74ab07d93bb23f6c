import Mathlib.Data.List.Forall2
import Mathlib.Data.List.Nodup
import Regen.Table.Diff

/-!
# What a comparison keeps

The output of a compared table is the list of candidates, up to what the
comparison takes for unchanged.  A table that comes out fully cached has the
output of the previous one; under a comparison by key that holds provided that
the candidates stand in the order of their predecessors.
-/

namespace Regen

open List (Forall₂)

/-- Elements that two lists have in common stand in the same order in both. -/
def SameOrder {κ : Type} [DecidableEq κ] (xs ys : List κ) : Prop :=
  xs.filter (· ∈ ys) = ys.filter (· ∈ xs)

instance {κ : Type} [DecidableEq κ] (xs ys : List κ) :
    Decidable (SameOrder xs ys) :=
  inferInstanceAs (Decidable (_ = _))

private theorem SameOrder.eq_of_subset {κ : Type} [DecidableEq κ] {xs ys : List κ}
    (h : SameOrder xs ys) (hxs : xs ⊆ ys) (hys : ys ⊆ xs) : xs = ys := by
  have hx : xs.filter (· ∈ ys) = xs :=
    List.filter_eq_self.2 fun x hx => by simpa using hxs hx
  have hy : ys.filter (· ∈ xs) = ys :=
    List.filter_eq_self.2 fun y hy => by simpa using hys hy
  rw [← hx, h, hy]

namespace Entry

variable {α : Type} {eq : α → α → Bool} {old new : α}

@[simp] theorem isRemoved_ofPair : (ofPair eq old new).isRemoved = false := by
  unfold ofPair
  split <;> rfl

@[simp] theorem isCached_ofPair :
    (ofPair eq old new).isCached = eq old new := by
  unfold ofPair
  split
  · next h => simp [isCached, h]
  · next h => simp [isCached, h]

theorem value_ofPair :
    (ofPair eq old new).value = if eq old new then old else new := by
  unfold ofPair
  split <;> rfl

end Entry

namespace Table

variable {α β κ : Type} {eq : α → α → Bool} {previous : Table α}
  {candidates : List α}

/-! ## By position -/

theorem live_diffValues_cons (old c : α) (olds cs : List α) :
    live ⟨diffValues eq (old :: olds) (c :: cs)⟩ =
      Entry.ofPair eq old c :: live ⟨diffValues eq olds cs⟩ := by
  simp [live, diffValues]

theorem live_append_map_ofRemoved {entries : List (Entry α)}
    (h : ∀ e ∈ entries, e.isRemoved = false) (gone : List α) :
    live ⟨entries ++ gone.map Entry.ofRemoved⟩ = entries := by
  have hgone : (gone.map Entry.ofRemoved).filter (!·.isRemoved) = [] := by
    simp [Entry.ofRemoved, Entry.isRemoved]
  have hkept : entries.filter (!·.isRemoved) = entries :=
    List.filter_eq_self.2 fun e he => by rw [h e he]; rfl
  rw [live, List.filter_append, hkept, hgone, List.append_nil]

@[simp] theorem values_map_ofRemoved (vs : List α) :
    values ⟨vs.map Entry.ofRemoved⟩ = [] := by
  simp [values, live, Entry.ofRemoved, Entry.isRemoved]

@[simp] theorem values_map_ofAdded (vs : List α) :
    values ⟨vs.map Entry.ofAdded⟩ = vs := by
  have hlive : live ⟨vs.map Entry.ofAdded⟩ = vs.map Entry.ofAdded := by
    refine List.filter_eq_self.2 fun e he => ?_
    obtain ⟨v, -, rfl⟩ := List.mem_map.1 he
    rfl
  simp [values, hlive, Entry.ofAdded, Function.comp_def]

/--
The output relates to `wanted` as the candidates do, provided that this survives
the replacement of a candidate by a predecessor that compares equal.
-/
theorem forall₂_values_diff {R : α → β → Prop} {wanted : List β}
    (h : Forall₂ R candidates wanted)
    (keep : ∀ old ∈ previous.values, ∀ c w, R c w → eq old c = true → R old w) :
    Forall₂ R (diff eq previous candidates).values wanted := by
  rw [diff]
  generalize previous.values = olds at keep ⊢
  induction h generalizing olds with
  | nil => simp [diffValues]
  | @cons c w cs ws hc hcs ih =>
      cases olds with
      | nil =>
          rw [diffValues_nil, values_map_ofAdded]
          exact .cons hc hcs
      | cons old olds =>
          rw [values, live_diffValues_cons, List.map_cons, Entry.value_ofPair]
          refine .cons ?_ (ih olds fun o ho => keep o (by simp [ho]))
          split
          · next heq => exact keep old (by simp) c w hc heq
          · exact hc

theorem values_diff_of_lawful [BEq α] [LawfulBEq α] :
    (diff (· == ·) previous candidates).values = candidates := by
  refine List.forall₂_eq_eq_eq ▸ forall₂_values_diff
    (List.forall₂_same.2 fun _ _ => rfl) fun old _ c w hcw heq => ?_
  rw [← hcw]
  exact eq_of_beq heq

theorem values_diff_of_isCached
    (h : (diff eq previous candidates).isCached = true) :
    (diff eq previous candidates).values = previous.values := by
  rw [diff] at h ⊢
  generalize previous.values = olds at h ⊢
  induction candidates generalizing olds with
  | nil =>
      cases olds with
      | nil => rfl
      | cons old olds =>
          simp [diffValues, isCached, Entry.isCached, Entry.ofRemoved] at h
  | cons c cs ih =>
      cases olds with
      | nil => simp [diffValues, isCached, Entry.isCached, Entry.ofAdded] at h
      | cons old olds =>
          simp only [diffValues, isCached, List.all_cons, Bool.and_eq_true,
            Entry.isCached_ofPair] at h ih
          rw [values, live_diffValues_cons, List.map_cons, Entry.value_ofPair,
            if_pos h.1]
          exact congrArg (old :: ·) (ih olds h.2)

theorem values_diff_again (h : previous.values = candidates) :
    (diff eq previous candidates).values = candidates := by
  rw [diff, h]
  clear h
  induction candidates with
  | nil => rfl
  | cons v vs ih =>
      rw [values, live_diffValues_cons, List.map_cons, Entry.value_ofPair,
        ite_self]
      exact congrArg (v :: ·) ih

@[simp] theorem length_values_diff :
    (diff eq previous candidates).values.length = candidates.length :=
  (forall₂_values_diff (R := fun _ _ => True)
    (List.forall₂_same.2 fun _ _ => trivial)
    fun _ _ _ _ _ _ => trivial).length_eq

/-! ## By key -/

variable [DecidableEq κ] {key : α → κ}

private theorem mem_pairByKey {olds : List α} {taken : List κ} {e : Entry α}
    (h : e ∈ pairByKey key eq olds taken candidates) :
    (∃ old ∈ olds, ∃ c ∈ candidates, key old = key c ∧
      e = Entry.ofPair eq old c) ∨
      ∃ c ∈ candidates, e = Entry.ofAdded c := by
  induction candidates generalizing taken with
  | nil => simp [pairByKey] at h
  | cons c cs ih =>
      rw [pairByKey, List.mem_cons] at h
      rcases h with h | h
      · split at h
        · next old hold =>
          split at hold
          · contradiction
          · have hkey := List.find?_some hold
            refine .inl ⟨old, List.mem_of_find?_eq_some hold, c, by simp, ?_, h⟩
            simpa using hkey
        · exact .inr ⟨c, by simp, h⟩
      · rcases ih h with ⟨old, hold, d, hd, hrest⟩ | ⟨d, hd, hrest⟩
        · exact .inl ⟨old, hold, d, by simp [hd], hrest⟩
        · exact .inr ⟨d, by simp [hd], hrest⟩

theorem live_diffOn :
    (diffOn key eq previous candidates).live =
      pairByKey key eq previous.values [] candidates := by
  refine live_append_map_ofRemoved (fun e he => ?_) _
  rcases mem_pairByKey he with ⟨_, _, _, _, _, rfl⟩ | ⟨_, _, rfl⟩
  · simp
  · rfl

theorem forall₂_values_diffOn {R : α → β → Prop} {wanted : List β}
    (h : Forall₂ R candidates wanted)
    (keep : ∀ old ∈ previous.values, ∀ c w, R c w → key old = key c →
      eq old c = true → R old w) :
    Forall₂ R (diffOn key eq previous candidates).values wanted := by
  rw [values, live_diffOn]
  generalize [] = taken
  induction h generalizing taken with
  | nil => simp [pairByKey]
  | @cons c w cs ws hc _ ih =>
      rw [pairByKey, List.map_cons]
      refine .cons ?_ (ih _)
      split
      · next old hold =>
        split at hold
        · contradiction
        · rw [Entry.value_ofPair]
          split
          · next heq =>
            have hkey : key old = key c := by simpa using List.find?_some hold
            exact keep old (List.mem_of_find?_eq_some hold) c w hc hkey heq
          · exact hc
      · exact hc

theorem values_diffOn
    (h : ∀ old ∈ previous.values, ∀ c ∈ candidates, key old = key c →
      eq old c = true → old = c) :
    (diffOn key eq previous candidates).values = candidates := by
  have self : Forall₂ (fun v w => v = w ∧ w ∈ candidates)
      (diffOn key eq previous candidates).values candidates := by
    refine forall₂_values_diffOn (List.forall₂_same.2 fun c hc => ⟨rfl, hc⟩) ?_
    rintro old hold c w ⟨rfl, hc⟩ hkey heq
    exact ⟨h old hold c hc hkey heq, hc⟩
  exact List.forall₂_eq_eq_eq ▸ self.imp fun _ _ hvw => hvw.1

theorem values_diffOn_of_lawful [BEq α] [LawfulBEq α] :
    (diffOn key (· == ·) previous candidates).values = candidates :=
  values_diffOn fun _ _ _ _ _ heq => eq_of_beq heq

theorem map_key_values_diffOn :
    (diffOn key eq previous candidates).values.map key = candidates.map key := by
  have hkeys : Forall₂ (fun v w => key v = key w)
      (diffOn key eq previous candidates).values candidates := by
    refine forall₂_values_diffOn (List.forall₂_same.2 fun _ _ => rfl) ?_
    intro old _ c w hcw hkey _
    exact hkey.trans hcw
  rw [← List.forall₂_eq_eq_eq, List.forall₂_map_left_iff,
    List.forall₂_map_right_iff]
  exact hkeys

theorem mem_values_of_isCached_diffOn {e : Entry α}
    (he : e ∈ (diffOn key eq previous candidates).live)
    (h : e.isCached = true) : e.value ∈ previous.values := by
  rw [live_diffOn] at he
  rcases mem_pairByKey he with ⟨old, hold, c, _, _, rfl⟩ | ⟨c, _, rfl⟩
  · rw [Entry.isCached_ofPair] at h
    rwa [Entry.value_ofPair, if_pos h]
  · simp [Entry.ofAdded, Entry.isCached] at h

theorem find?_of_isCached_diffOn {e : Entry α}
    (he : e ∈ (diffOn key eq previous candidates).live)
    (h : e.isCached = true) :
    previous.values.find? (key · = key e.value) = some e.value := by
  rw [live_diffOn] at he
  generalize [] = taken at he
  induction candidates generalizing taken with
  | nil => simp [pairByKey] at he
  | cons c cs ih =>
      rw [pairByKey, List.mem_cons] at he
      rcases he with rfl | he
      · split at h
        · next old hold =>
          rw [Entry.isCached_ofPair] at h
          split at hold
          · contradiction
          · have hkey : key old = key c := by simpa using List.find?_some hold
            rw [Entry.value_ofPair, if_pos h, hkey]
            exact hold
        · simp [Entry.ofAdded, Entry.isCached] at h
      · exact ih _ he

private theorem values_pairByKey_self {before cs : List α} {taken : List κ}
    (htaken : ∀ k, k ∈ taken ↔ k ∈ before.map key) :
    (pairByKey key eq (before ++ cs) taken cs).map (·.value) = cs := by
  induction cs generalizing before taken with
  | nil => rfl
  | cons c cs ih =>
      have hrest := @ih (before ++ [c]) (key c :: taken) fun k => by
        rw [List.mem_cons, htaken, List.map_append, List.mem_append, or_comm]
        simp
      rw [List.append_assoc, List.singleton_append] at hrest
      rw [pairByKey, List.map_cons, hrest]
      refine congrArg (· :: cs) ?_
      split
      · next old hold =>
        split at hold
        · contradiction
        · next hfresh =>
          have hnone : before.find? (key · = key c) = none := by
            rw [htaken] at hfresh
            simpa [List.find?_eq_none] using hfresh
          rw [List.find?_append, hnone, Option.none_or,
            List.find?_cons_of_pos (by simp)] at hold
          rw [← Option.some.inj hold, Entry.value_ofPair, ite_self]
      · rfl

theorem values_diffOn_again (h : previous.values = candidates) :
    (diffOn key eq previous candidates).values = candidates := by
  rw [values, live_diffOn, h]
  exact @values_pairByKey_self _ _ _ _ _ [] _ _ (by simp)

private theorem mem_unpaired {wanted seen : List κ} {olds : List α} {old : α}
    (hold : old ∈ olds) (h : key old ∉ wanted) :
    old ∈ unpaired key wanted seen olds := by
  induction olds generalizing seen with
  | nil => simp at hold
  | cons o olds ih =>
      rw [unpaired]
      rcases List.mem_cons.1 hold with rfl | hold
      · simp [h]
      · split
        · exact ih hold
        · exact List.mem_cons_of_mem _ (ih hold)

private theorem unpaired_eq_nil {wanted seen : List κ} {olds : List α}
    (hnodup : (olds.map key).Nodup) (hseen : ∀ old ∈ olds, key old ∉ seen)
    (h : ∀ old ∈ olds, key old ∈ wanted) :
    unpaired key wanted seen olds = [] := by
  induction olds generalizing seen with
  | nil => rfl
  | cons o olds ih =>
      obtain ⟨hfirst, hrest⟩ := List.nodup_cons.1 hnodup
      rw [unpaired, if_pos ⟨h o (by simp), hseen o (by simp)⟩]
      refine ih hrest (fun old hold => ?_) fun old hold => h old (by simp [hold])
      rw [List.mem_cons, not_or]
      refine ⟨fun heq => hfirst ?_, hseen old (by simp [hold])⟩
      exact heq ▸ List.mem_map_of_mem hold

theorem subset_of_isCached_diffOn
    (h : (diffOn key eq previous candidates).isCached = true) :
    (diffOn key eq previous candidates).values ⊆ previous.values ∧
      previous.values.map key ⊆ candidates.map key := by
  have hlive := live_of_isCached h
  rw [isCached, List.all_eq_true] at h
  constructor
  · intro v hv
    obtain ⟨e, he, rfl⟩ := List.mem_map.1 hv
    exact mem_values_of_isCached_diffOn he (h e (hlive ▸ he))
  · intro k hk
    obtain ⟨old, hold, rfl⟩ := List.mem_map.1 hk
    by_contra hwanted
    have hgone : Entry.ofRemoved old ∈
        (diffOn key eq previous candidates).entries :=
      List.mem_append_right _
        (List.mem_map_of_mem (mem_unpaired hold hwanted))
    exact absurd (h _ hgone) (by simp [Entry.ofRemoved, Entry.isCached])

theorem values_subset_of_isCached_diffOn
    (hnodup : (previous.values.map key).Nodup)
    (h : (diffOn key eq previous candidates).isCached = true) :
    previous.values ⊆ (diffOn key eq previous candidates).values := by
  obtain ⟨hsub, hkeys⟩ := subset_of_isCached_diffOn h
  intro old hold
  have hkey : key old ∈
      (diffOn key eq previous candidates).values.map key := by
    rw [map_key_values_diffOn]
    exact hkeys (List.mem_map_of_mem hold)
  obtain ⟨v, hv, hsame⟩ := List.mem_map.1 hkey
  rwa [← List.inj_on_of_nodup_map hnodup (hsub hv) hold hsame]

private theorem nodup_of_isCached_pairByKey {olds : List α} {taken : List κ}
    (h : ∀ e ∈ pairByKey key eq olds taken candidates, e.isCached = true) :
    (candidates.map key).Nodup ∧ ∀ c ∈ candidates, key c ∉ taken := by
  induction candidates generalizing taken with
  | nil => simp
  | cons c cs ih =>
      rw [pairByKey, List.forall_mem_cons] at h
      obtain ⟨hnodup, hfresh⟩ := ih h.2
      have hfirst : key c ∉ taken := by
        intro htaken
        rw [if_pos htaken] at h
        exact absurd h.1 (by simp [Entry.ofAdded, Entry.isCached])
      refine ⟨List.nodup_cons.2 ⟨fun hmem => ?_, hnodup⟩, fun d hd => ?_⟩
      · obtain ⟨d, hd, hkey⟩ := List.mem_map.1 hmem
        exact hfresh d hd (hkey ▸ List.mem_cons_self)
      · rcases List.mem_cons.1 hd with rfl | hd
        · exact hfirst
        · exact fun htaken => hfresh d hd (List.mem_cons_of_mem _ htaken)

private theorem nodup_of_unpaired_eq_nil {wanted seen : List κ} {olds : List α}
    (h : unpaired key wanted seen olds = []) :
    (olds.map key).Nodup ∧ ∀ old ∈ olds, key old ∉ seen := by
  induction olds generalizing seen with
  | nil => simp
  | cons o olds ih =>
      rw [unpaired] at h
      split at h
      · next hpaired =>
        obtain ⟨hnodup, hfresh⟩ := ih h
        refine ⟨List.nodup_cons.2 ⟨fun hmem => ?_, hnodup⟩, fun old hold => ?_⟩
        · obtain ⟨old, hold, hkey⟩ := List.mem_map.1 hmem
          exact hfresh old hold (hkey ▸ List.mem_cons_self)
        · rcases List.mem_cons.1 hold with rfl | hold
          · exact hpaired.2
          · exact fun hseen => hfresh old hold (List.mem_cons_of_mem _ hseen)
      · contradiction

theorem length_values_diffOn :
    (diffOn key eq previous candidates).values.length = candidates.length := by
  rw [← List.length_map key, map_key_values_diffOn, List.length_map]

theorem length_of_isCached_diffOn
    (h : (diffOn key eq previous candidates).isCached = true) :
    (diffOn key eq previous candidates).values.length =
      previous.values.length := by
  obtain ⟨hvalues, hwanted⟩ := subset_of_isCached_diffOn h
  have hkeys : candidates.map key ⊆ previous.values.map key := by
    rw [← @map_key_values_diffOn α κ eq previous candidates _ key]
    exact List.map_subset key hvalues
  rw [isCached, diffOn, List.all_append, Bool.and_eq_true, List.all_eq_true] at h
  have hnone : unpaired key (candidates.map key) [] previous.values = [] := by
    refine List.eq_nil_iff_forall_not_mem.2 fun old hold => ?_
    have hcached := List.all_eq_true.1 h.2 _ (List.mem_map_of_mem hold)
    exact absurd hcached (by simp [Entry.ofRemoved, Entry.isCached])
  have hperm : (candidates.map key).Perm (previous.values.map key) :=
    (List.perm_ext_iff_of_nodup (nodup_of_isCached_pairByKey h.1).1
      (nodup_of_unpaired_eq_nil hnone).1).2 fun k =>
        ⟨fun hk => hkeys hk, fun hk => hwanted hk⟩
  have hlength := hperm.length_eq
  rw [List.length_map, List.length_map] at hlength
  rw [length_values_diffOn, hlength]

omit [DecidableEq κ] in
private theorem eq_of_map_eq_of_subset {f : α → κ} {xs ys : List α}
    (h : xs.map f = ys.map f) (hsub : xs ⊆ ys) (hnodup : (ys.map f).Nodup) :
    xs = ys := by
  have hinj := List.inj_on_of_nodup_map hnodup
  have hall : Forall₂ (fun x y => x ∈ ys ∧ y ∈ ys ∧ f x = f y) xs ys := by
    rw [← List.forall₂_eq_eq_eq, List.forall₂_map_left_iff,
      List.forall₂_map_right_iff] at h
    refine (List.forall₂_iff_get.2 ⟨h.length_eq, fun i hx hy => ?_⟩)
    exact ⟨hsub (List.get_mem ..), List.get_mem .., h.get hx hy⟩
  exact List.forall₂_eq_eq_eq ▸ hall.imp fun x y ⟨hx, hy, hf⟩ => hinj hx hy hf

/--
With distinct keys on the previous side, a fully cached outcome has the previous
output, provided that the candidates follow the order of their predecessors.
-/
theorem values_diffOn_of_isCached (hnodup : (previous.values.map key).Nodup)
    (order : SameOrder (previous.values.map key) (candidates.map key))
    (h : (diffOn key eq previous candidates).isCached = true) :
    (diffOn key eq previous candidates).values = previous.values := by
  obtain ⟨hvalues, hwanted⟩ := subset_of_isCached_diffOn h
  have hkeys : candidates.map key ⊆ previous.values.map key := by
    rw [← @map_key_values_diffOn α κ eq previous candidates _ key]
    exact List.map_subset key hvalues
  refine eq_of_map_eq_of_subset ?_ hvalues hnodup
  rw [map_key_values_diffOn, order.eq_of_subset hwanted hkeys]

theorem find?_key_of_mem {olds : List α} (hnodup : (olds.map key).Nodup)
    {old : α} (hold : old ∈ olds) :
    olds.find? (key · = key old) = some old := by
  have hsome : (olds.find? (key · = key old)).isSome = true :=
    List.find?_isSome.2 ⟨old, hold, by simp⟩
  obtain ⟨o, ho⟩ := Option.isSome_iff_exists.1 hsome
  have hkey : key o = key old := by simpa using List.find?_some ho
  rw [ho, List.inj_on_of_nodup_map hnodup (List.mem_of_find?_eq_some ho) hold
    hkey]

private theorem pairByKey_of_nodup {olds : List α} {taken : List κ}
    (hnodup : (candidates.map key).Nodup)
    (hfresh : ∀ c ∈ candidates, key c ∉ taken) :
    pairByKey key eq olds taken candidates = candidates.map fun c =>
      match olds.find? (key · = key c) with
      | some old => Entry.ofPair eq old c
      | none => Entry.ofAdded c := by
  induction candidates generalizing taken with
  | nil => rfl
  | cons c cs ih =>
      obtain ⟨hfirst, hrest⟩ := List.nodup_cons.1 hnodup
      have hfresh' : ∀ d ∈ cs, key d ∉ key c :: taken := by
        intro d hd
        rw [List.mem_cons, not_or]
        refine ⟨fun hdc => hfirst ?_, hfresh d (by simp [hd])⟩
        exact hdc ▸ List.mem_map_of_mem hd
      rw [pairByKey, if_neg (hfresh c (by simp)), ih hrest hfresh']
      rfl

theorem live_diffOn_of_nodup (hnodup : (candidates.map key).Nodup) :
    (diffOn key eq previous candidates).live = candidates.map fun c =>
      match previous.values.find? (key · = key c) with
      | some old => Entry.ofPair eq old c
      | none => Entry.ofAdded c := by
  rw [live_diffOn]
  exact pairByKey_of_nodup hnodup (by simp)

private theorem isCached_pairByKey {olds : List α} {taken : List κ}
    (holds : (olds.map key).Nodup) (hnodup : (candidates.map key).Nodup)
    (hfresh : ∀ c ∈ candidates, key c ∉ taken)
    (h : ∀ c ∈ candidates, ∃ old ∈ olds, key old = key c ∧ eq old c = true) :
    ∀ e ∈ pairByKey key eq olds taken candidates, e.isCached = true := by
  rw [pairByKey_of_nodup hnodup hfresh]
  intro e he
  obtain ⟨c, hc, rfl⟩ := List.mem_map.1 he
  obtain ⟨old, hold, hkey, heq⟩ := h c hc
  rw [← hkey, find?_key_of_mem holds hold]
  simpa using heq

theorem isCached_diffOn (holds : (previous.values.map key).Nodup)
    (hnodup : (candidates.map key).Nodup)
    (hwanted : previous.values.map key ⊆ candidates.map key)
    (h : ∀ c ∈ candidates, ∃ old ∈ previous.values,
      key old = key c ∧ eq old c = true) :
    (diffOn key eq previous candidates).isCached = true := by
  rw [diffOn, unpaired_eq_nil holds (by simp)
    fun old hold => hwanted (List.mem_map_of_mem hold)]
  simpa [isCached] using isCached_pairByKey holds hnodup (by simp) h

theorem eq_settled_of_isCached {t u : Table α} (h : t.isCached = true)
    (hvalues : t.values = u.values) : t = u.settled := by
  rw [← settled_of_isCached h, settled, settled, hvalues]

end Table

end Regen
