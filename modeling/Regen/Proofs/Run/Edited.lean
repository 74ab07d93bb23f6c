import Regen.Proofs.Run.Recalled

/-!
# What one edited file costs

The syntax of one file has changed and all other files stand as they stood.  A
filter walks that file and no other.  A marker selector takes the aliases of
that file alone; it scans it again, and with it those files whose scan looked up
a global name that has got other targets.
-/

namespace Regen

open Syntax

private theorem upsert_eq_map {α κ : Type} [DecidableEq κ] {key : α → κ} {new : α}
    {as : List α} (hnodup : (as.map key).Nodup) (h : key new ∈ as.map key) :
    upsert (key · == key new) new as =
      as.map fun a => if key a = key new then new else a := by
  induction as with
  | nil => simp at h
  | cons a as ih =>
      obtain ⟨hfirst, hrest⟩ := List.nodup_cons.1 hnodup
      unfold upsert
      by_cases ha : key a = key new
      · have hothers : ∀ b ∈ as, (if key b = key new then new else b) = b := by
          intro b hb
          refine if_neg fun hkey => hfirst ?_
          rw [ha, ← hkey]
          exact List.mem_map_of_mem hb
        rw [if_pos (by simpa using ha), List.map_cons, if_pos ha,
          List.map_congr_left hothers, List.map_id']
      · have hthere : key new ∈ as.map key := by
          rcases List.mem_cons.1 h with heq | hthere
          · exact absurd heq.symm ha
          · exact hthere
        rw [if_neg (by simpa using ha), List.map_cons, if_neg ha,
          ih hrest hthere]

namespace Table

variable {α κ : Type} [DecidableEq κ]

def modifiedAt (key : α → κ) (k : κ) (values : List α) : List (Entry α) :=
  values.map fun v => ⟨v, if key v = k then .modified else .cached⟩

@[simp] theorem map_value_modifiedAt (key : α → κ) (k : κ) (values : List α) :
    (modifiedAt key k values).map (·.value) = values := by
  simp [modifiedAt, Function.comp_def]

private theorem live_diffOn_modifiedAt {key : α → κ} {k : κ} {eq : α → α → Bool}
    {previous : Table α} {candidates : List α}
    (holds : (previous.values.map key).Nodup)
    (hnodup : (candidates.map key).Nodup)
    (hothers : ∀ c ∈ candidates, key c ≠ k →
      c ∈ previous.values ∧ eq c c = true)
    (hchanged : ∀ c ∈ candidates, key c = k →
      ∃ old ∈ previous.values, key old = k ∧ eq old c = false) :
    (diffOn key eq previous candidates).live = modifiedAt key k candidates := by
  rw [live_diffOn_of_nodup hnodup]
  refine List.map_congr_left fun c hc => ?_
  by_cases hk : key c = k
  · obtain ⟨old, hold, hkey, hne⟩ := hchanged c hc hk
    rw [hk, ← hkey, find?_key_of_mem holds hold, if_pos rfl]
    simp [Entry.ofPair, hne]
  · obtain ⟨hold, heq⟩ := hothers c hc hk
    rw [find?_key_of_mem holds hold, if_neg hk]
    simp [Entry.ofPair, heq]

end Table

/-- The files after one of them has got another syntax. -/
structure Edited (before : List Tree) (t : Tree) (root : Node)
    (after : List Tree) : Prop where
  ids : (before.map (·.id)).Nodup
  mem : t ∈ before
  changed : root ≠ t.root
  after_eq : after =
    before.map fun u => if u.id = t.id then t.setRoot root else u

namespace Edited

variable {before after : List Tree} {t : Tree} {root : Node}

theorem of_insert {c : Compilation} (hids : (c.trees.map (·.id)).Nodup)
    (ht : t ∈ c.trees) (hroot : root ≠ t.root) :
    Edited c.trees t root (c.insert (t.setRoot root)).trees where
  ids := hids
  mem := ht
  changed := hroot
  after_eq := by
    have hid : (t.setRoot root).id ∈ c.trees.map (·.id) :=
      List.mem_map.2 ⟨t, ht, rfl⟩
    exact upsert_eq_map hids hid

variable (h : Edited before t root after)

include h

theorem map_id : after.map (·.id) = before.map (·.id) := by
  rw [h.after_eq, List.map_map]
  refine List.map_congr_left fun u _ => ?_
  simp only [Function.comp_apply]
  split
  · next hid => exact hid.symm
  · rfl

theorem ids_after : (after.map (·.id)).Nodup :=
  h.map_id ▸ h.ids

private theorem eq_of_mem {u : Tree} (hu : u ∈ after) :
    u.id = t.id ∧ u = t.setRoot root ∨ u.id ≠ t.id ∧ u ∈ before := by
  rw [h.after_eq] at hu
  obtain ⟨v, hv, rfl⟩ := List.mem_map.1 hu
  split
  · exact .inl ⟨rfl, rfl⟩
  · next hid => exact .inr ⟨hid, hv⟩

private theorem setRoot_mem : t.setRoot root ∈ after := by
  rw [h.after_eq]
  exact List.mem_map.2 ⟨t, h.mem, if_pos rfl⟩

private theorem map_id_filter :
    (after.filter (·.id == t.id)).map (·.id) = [t.id] := by
  have hthere : t.id ∈ after.map (·.id) := by
    rw [h.map_id]
    exact List.mem_map_of_mem h.mem
  calc (after.filter (·.id == t.id)).map (·.id)
      = (after.map (·.id)).filter (· == t.id) := by
        rw [List.filter_map]
        rfl
    _ = [t.id] := by
      rw [List.filter_beq, List.count_eq_one_of_mem h.ids_after hthere]
      rfl

private theorem live_trees {old : Option (Table Tree)}
    (hold : (old.getD .empty).values = before) :
    (Work.trees after old).tables.live =
      Table.modifiedAt (·.id) t.id after := by
  subst hold
  refine Table.live_diffOn_modifiedAt h.ids h.ids_after (fun u hu hid => ?_)
    fun u hu hid => ⟨t, h.mem, rfl, ?_⟩
  · rcases h.eq_of_mem hu with ⟨hsame, -⟩ | ⟨-, hthere⟩
    · exact absurd hsame hid
    · exact ⟨hthere, Work.sameFile_refl u⟩
  · rcases h.eq_of_mem hu with ⟨-, rfl⟩ | ⟨hother, -⟩
    · simp [Work.sameFile, Tree.sameRoot, Tree.setRoot, Ne.symm h.changed]
    · exact absurd hid hother

private theorem live_fileRoots {input : Table Tree}
    {old : Option (Table (PerTree Node))} (hin : input.values = after)
    (hold : (old.getD .empty).values =
      before.map fun u => ⟨u.id, u.root⟩) :
    (Work.fileRoots input old).tables.live =
      Table.modifiedAt (·.tree) t.id
        (after.map fun u => ⟨u.id, u.root⟩) := by
  have hids : ((before.map fun u => (⟨u.id, u.root⟩ : PerTree Node)).map
      (·.tree)).Nodup := by
    rw [List.map_map]
    exact h.ids
  have hids' : ((after.map fun u => (⟨u.id, u.root⟩ : PerTree Node)).map
      (·.tree)).Nodup := by
    rw [List.map_map]
    exact h.ids_after
  rw [Work.fileRoots, hin]
  refine Table.live_diffOn_modifiedAt (hold ▸ hids) hids' ?_ ?_
  · rw [hold]
    rintro unit hunit hid
    obtain ⟨u, hu, rfl⟩ := List.mem_map.1 hunit
    rcases h.eq_of_mem hu with ⟨hsame, -⟩ | ⟨-, hthere⟩
    · exact absurd hsame hid
    · exact ⟨List.mem_map_of_mem hthere, beq_self_eq_true _⟩
  · rw [hold]
    rintro unit hunit hid
    obtain ⟨u, hu, rfl⟩ := List.mem_map.1 hunit
    refine ⟨⟨t.id, t.root⟩, List.mem_map_of_mem h.mem, rfl, ?_⟩
    rcases h.eq_of_mem hu with ⟨-, rfl⟩ | ⟨hother, -⟩
    · simp [Tree.setRoot, Ne.symm h.changed]
    · exact absurd hid hother

end Edited

namespace Plan

variable {α β : Type}

def afresh (p : Plan α β) : List α :=
  (p.filter (·.2.isNone)).map (·.1)

private theorem computed_eq_length_afresh (p : Plan α β) :
    p.computed = p.afresh.length := by
  rw [computed, afresh, List.length_map, List.countP_eq_length_filter]

private theorem afresh_byTree {treeOf : α → TreeId} {usable : β → Bool}
    {old : List (PerTree β)} {inputs : List α} {k : TreeId} :
    (byTree treeOf usable old (Table.modifiedAt treeOf k inputs)).afresh =
      inputs.filter fun a =>
        treeOf a == k || !(itemOf? old (treeOf a)).any usable := by
  rw [byTree, Table.modifiedAt, List.map_map, afresh, List.filter_map,
    List.map_map]
  refine (List.map_id _).trans (List.filter_congr fun a _ => ?_)
  by_cases hk : treeOf a = k
  · simp [hk, Entry.isCached]
  · cases hitem : itemOf? old (treeOf a) with
    | none => simp [hk, hitem, Entry.isCached]
    | some b => cases husable : usable b <;>
        simp [hk, hitem, husable, Entry.isCached]

private theorem all_there {old : List (PerTree β)} {a : TreeId}
    (h : a ∈ old.map (·.tree)) :
    (itemOf? old a).any (fun _ => true) = true := by
  obtain ⟨b, hb, -⟩ := itemOf?_of_mem h
  rw [hb]
  rfl

end Plan

def Journal.walked (j : Journal) : List TreeId :=
  j.filterMap fun
    | .report (.walkedFile _ tree _) => some tree
    | _ => none

private theorem Journal.walked_append (j k : Journal) :
    Journal.walked (j ++ k) = j.walked ++ k.walked :=
  List.filterMap_append

def OldMarkerTables.lookedUp (old : OldMarkerTables) (tree : TreeId) :
    List String :=
  ((Plan.itemOf? (old.found.getD .empty).values tree).map (·.consulted)).getD []

/--
The edited file, and the files whose last scan looked up a global name that has
got other targets.
-/
def OldMarkerTables.rewalked (old : OldMarkerTables) (before after : List Tree)
    (edited : TreeId) : List TreeId :=
  (after.filter fun u =>
    u.id == edited || (old.lookedUp u.id).any fun name =>
      (globalsOf before).targetSet name != (globalsOf after).targetSet name).map
    (·.id)

namespace Work

private theorem walked_scanJournal (site : Site) (scan : Node → Scan)
    (unit : PerTree Node) :
    (scanJournal site scan unit).walked = [unit.tree] := by
  rw [scanJournal, Journal.walked_append]
  have hpolls : ∀ n, Journal.walked (List.replicate n .poll) = [] := by
    intro n
    simp [Journal.walked]
  rw [hpolls]
  rfl

private theorem walked_journal (site : Site) (scan : Node → Scan)
    (p : Plan (PerTree Node) Scan) :
    (p.journal (scanJournal site scan)).walked = p.afresh.map (·.tree) := by
  induction p with
  | nil => rfl
  | cons x p ih =>
      obtain ⟨unit, kept⟩ := x
      rw [Plan.journal, List.flatMap_cons, Journal.walked_append]
      change _ ++ Journal.walked (Plan.journal (scanJournal site scan) p) = _
      rw [ih]
      cases kept with
      | some scan => rfl
      | none => exact congrArg (· ++ _) (walked_scanJournal site scan unit)

private theorem unlessIdle₂_false {β γ : Type} (old₁ : Option (Table β))
    (old₂ : Option (Table γ))
    (work : Table β → Table γ → Work (Table β × Table γ)) :
    unlessIdle₂ false old₁ old₂ work =
      work (old₁.getD .empty) (old₂.getD .empty) := by
  cases old₁ <;> cases old₂ <;> rfl

section

variable {before after : List Tree} {t : Tree} {root : Node} {site : Site}
  (h : Edited before t root after) {oldInput input : Table Tree}
  (hlive : input.live = Table.modifiedAt (·.id) t.id after)

include h

private theorem computed_edited {β : Type} {old : List (PerTree β)}
    (hold : ∀ u ∈ after, u.id ∈ old.map (·.tree)) :
    (Plan.byTree (·.id) (fun _ => true) old
      (Table.modifiedAt (·.id) t.id after)).computed = 1 := by
  have hone : (after.filter (·.id == t.id)).length = 1 := by
    have hlength := congrArg List.length h.map_id_filter
    rwa [List.length_map] at hlength
  rw [Plan.computed_eq_length_afresh, Plan.afresh_byTree, ← hone]
  refine congrArg List.length (List.filter_congr fun u hu => ?_)
  rw [Plan.all_there (hold u hu), Bool.not_true, Bool.or_false]

include hlive

private theorem not_isCached_edited : input.isCached = false := by
  rw [← Bool.not_eq_true]
  intro hcached
  have hmem : ⟨t.setRoot root, .modified⟩ ∈ input.live := by
    rw [hlive]
    exact List.mem_map.2 ⟨_, h.setRoot_mem, by simp [Tree.setRoot]⟩
  have := Table.isCached_of_mem_live hcached _ hmem
  contradiction

theorem executions_filter_edited {β : Type} {sameOut : β → β → Bool}
    {accepts : Node → Bool} {map : Tree → Node → β}
    {oldItems : Option (Table (PerTree (List β)))} {old : Option (Table β)}
    (hitems : ∀ u ∈ after,
      u.id ∈ (oldItems.getD .empty).values.map (·.tree)) :
    (filter site sameOut accepts map input oldItems old).executions = 1 := by
  rw [filter, not_isCached_edited h hlive, unlessIdle₂_false, hlive]
  exact computed_edited h hitems

variable {marker : Marker} {shape : Shape} {old : OldMarkerTables}
  (hold : old.Recalls marker shape before)

include hold

private theorem executions_fileAliases_edited :
    (fileAliases input old.aliases).executions = 1 := by
  rw [fileAliases, hlive]
  refine computed_edited h fun u hu => ?_
  rw [hold.aliases.map_tree, ← h.map_id]
  exact List.mem_map_of_mem hu

variable (hin : Stands oldInput input) (hbefore : oldInput.values = before)

include hin hbefore

private theorem afresh_scans_edited :
    ((Plan.byTree (·.tree)
      (untouched (changedNames old.globals
        (globalAliases (fileAliases input old.aliases).tables
          old.globals).tables))
      (old.found.getD .empty).values
      (fileRoots input old.units).tables.live).afresh).map (·.tree) =
        old.rewalked before after t.id := by
  have hafter : input.values = after := by
    rw [Table.values, hlive, Table.map_value_modifiedAt]
  have hchanged := mem_changedNames_iff hin (hbefore ▸ hold)
  rw [hbefore, hafter] at hchanged
  rw [h.live_fileRoots hafter hold.units, Plan.afresh_byTree, List.filter_map,
    List.map_map]
  refine congrArg (List.map _) (List.filter_congr fun u hu => ?_)
  have hthere : u.id ∈ (old.found.getD .empty).values.map (·.tree) := by
    rw [hold.found.map_tree, ← h.map_id]
    exact List.mem_map_of_mem hu
  obtain ⟨scan, hscan, -⟩ := Plan.itemOf?_of_mem hthere
  refine congrArg (u.id == t.id || ·) ?_
  rw [OldMarkerTables.lookedUp, hscan, Option.any_some, untouched,
    List.not_all_eq_any_not, Option.map_some, Option.getD_some, Bool.eq_iff_iff,
    List.any_eq_true, List.any_eq_true]
  refine exists_congr fun name => and_congr_right fun _ => ?_
  rw [Bool.not_not, List.contains_iff_mem, hchanged, bne_iff_ne]

/--
A marker selector takes the aliases of one file, and reports the files that it
scans in the order of the compilation.
-/
theorem marked_edited :
    let new := marked site marker shape input old
    new.journal.walked = old.rewalked before after t.id ∧
      new.executions = (old.rewalked before after t.id).length ∧
      ∃ sub ∈ new.tables.2, sub.suffix = "aliases" ∧ sub.executions = 1 := by
  have hafresh := afresh_scans_edited h hlive hold hin hbefore
  refine ⟨?_, ?_, _, List.mem_cons_self, rfl,
    executions_fileAliases_edited h hlive hold⟩
  · rw [← hafresh]
    exact walked_journal _ _ _
  · rw [← hafresh, List.length_map]
    exact Plan.computed_eq_length_afresh _

end

end Work

private theorem Edited.sameAliases {before after : List Tree} {t : Tree} {root : Node}
    (h : Edited before t root after)
    (same : (AliasSet.ofRoot root).SameAliases (AliasSet.ofRoot t.root)) :
    (globalsOf before).SameAliases (globalsOf after) := by
  intro a
  simp only [globalsOf, List.mem_flatMap, List.mem_map,
    exists_exists_and_eq_and, h.after_eq]
  refine exists_congr fun u => and_congr_right fun hu => ?_
  split
  · next hid =>
    obtain rfl : u = t := List.inj_on_of_nodup_map h.ids hu h.mem hid
    have hsame := (same a).symm
    rwa [AliasSet.pairs_ofRoot, AliasSet.pairs_ofRoot] at hsame
  · exact Iff.rfl

private theorem OldMarkerTables.rewalked_of_sameAliases {before after : List Tree}
    {t : Tree} {root : Node} (h : Edited before t root after)
    (same : (AliasSet.ofRoot root).SameAliases (AliasSet.ofRoot t.root))
    (old : OldMarkerTables) : old.rewalked before after t.id = [t.id] := by
  rw [rewalked, ← h.map_id_filter]
  refine congrArg (List.map _) (List.filter_congr fun u _ => ?_)
  simp [(h.sameAliases same).targetSet_eq]

private theorem OldMarkerTables.Recalls.lookedUp_eq {old : OldMarkerTables}
    {marker : Marker} {shape : Shape} {trees : List Tree}
    (h : old.Recalls marker shape trees) (hids : (trees.map (·.id)).Nodup)
    {u : Tree} (hu : u ∈ trees) :
    ∃ globals,
      old.lookedUp u.id = (marker.scanFile shape globals u.root).consulted ∧
        AliasSet.AgreeOn (old.lookedUp u.id) globals (globalsOf trees) := by
  have hthere : u.id ∈ (old.found.getD .empty).values.map (·.tree) := by
    rw [h.found.map_tree]
    exact List.mem_map_of_mem hu
  obtain ⟨scan, hscan, -⟩ := Plan.itemOf?_of_mem hthere
  obtain ⟨v, hv, hid, globals, rfl, agree⟩ := Plan.itemOf?_some h.found hscan
  obtain rfl : v = u := List.inj_on_of_nodup_map hids hv hu hid
  rw [lookedUp, hscan]
  exact ⟨globals, rfl, agree⟩

/--
What a marker selector does after an edit.  Of `old`, which it has kept of the
files `before`, only the files in `rewalked` are scanned again.
-/
structure OldMarkerTables.Rescans {U : Type} (old : OldMarkerTables)
    (marker : Marker) (shape : Shape) (before : List Tree) (t : Tree)
    (root : Node) (after : List Tree) (x : StepResult U) : Prop where
  aliases : ∃ sub ∈ x.subSteps, sub.suffix = "aliases" ∧ sub.executions = 1
  walked : x.journal.walked = old.rewalked before after t.id
  executions : x.executions = (old.rewalked before after t.id).length
  lookedUp : ∀ u ∈ before, ∃ globals,
    old.lookedUp u.id = (marker.scanFile shape globals u.root).consulted ∧
      AliasSet.AgreeOn (old.lookedUp u.id) globals (globalsOf before)
  alone : (AliasSet.ofRoot root).SameAliases (AliasSet.ofRoot t.root) →
    old.rewalked before after t.id = [t.id]

namespace RunContext

variable {U : Type} [BEq U] {r : RunContext U} {g : GraphId} {graph : Graph U}
  {tables : Store (Carrier U)} (w : graph.WellFormed)
  (h : r.full.Solves g graph tables) (hold : r.previous.Recalls g graph)
  {before : List Tree} {t : Tree} {root : Node}
  (edited : Edited before t root r.trees)
  (hbefore : ∀ {id s}, graph.step? id = some s → s.step = .trees →
    r.previous.reading g .tree id = before)
  {id : StepId} {s : GraphStep U} (hs : graph.step? id = some s)

include w h edited hbefore hs

private theorem Solves.live_trees_edited (hstep : s.step = .trees) :
    (tables.read .tree (.output g id)).live =
      Table.modifiedAt (·.id) t.id r.trees := by
  rw [h.read_trees w hs hstep]
  exact edited.live_trees (hbefore hs hstep)

include hold

theorem Solves.executions_filter_edited {input : StepId} {β : DataType}
    {accepts : Node → Bool} {map : Tree → Node → Carrier U β}
    (hstep : s.step = .filter input β accepts map) :
    (s.step.evaluate (r.stepContext g id tables)).executions = 1 := by
  obtain ⟨u, hu, hutrees⟩ := w.walked hs input (by rw [hstep]; rfl)
  have hlive := h.live_trees_edited w edited hbefore hu hutrees
  have hrecalls := hold.step hs
  rw [hstep, Step.Recalls, hbefore hu hutrees] at hrecalls
  rw [hstep]
  refine Work.executions_filter_edited edited hlive fun v hv => ?_
  have hid : v.id ∈ before.map (·.id) := by
    rw [← edited.map_id]
    exact List.mem_map_of_mem hv
  obtain ⟨v', hv', hsame⟩ := List.mem_map.1 hid
  exact hsame ▸ hrecalls v' hv'

theorem Solves.rescans_edited {input : StepId} {marker : Marker}
    {shape : Shape}
    (hstep : s.step = .marked input marker shape) :
    (r.previous.keptMarkers ⟨g, id⟩).Rescans marker shape before t root r.trees
      (s.step.evaluate (r.stepContext g id tables)) := by
  obtain ⟨u, hu, hutrees⟩ := w.walked hs input (by rw [hstep]; rfl)
  have hlive := h.live_trees_edited w edited hbefore hu hutrees
  have hin := h.stands w hold hu hutrees
  have hrecalls := hold.step hs
  rw [hstep, Step.Recalls, hbefore hu hutrees] at hrecalls
  obtain ⟨hwalked, hexecutions, haliases⟩ :=
    @Work.marked_edited _ _ _ _ ⟨g, id⟩ edited _ _ hlive _ _ _ hrecalls hin
      (hbefore hu hutrees)
  rw [hstep]
  exact {
    aliases := haliases
    walked := hwalked
    executions := hexecutions
    lookedUp := fun u hu => hrecalls.lookedUp_eq edited.ids hu
    alone := fun same =>
      OldMarkerTables.rewalked_of_sameAliases edited same _ }

end RunContext

end Regen
