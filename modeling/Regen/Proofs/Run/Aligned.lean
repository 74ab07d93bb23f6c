import Regen.Proofs.Run.Equations
import Regen.Proofs.Run.Idle

/-!
# What a published store has in common with its inputs

After any run, whatever came before it, each step has its tables and no others,
and the tables that go by the input files list these files.  That is enough for
a step to recognise that none of its inputs has changed.
-/

namespace Regen

open List (Forall₂)
open Syntax

variable {U : Type}

namespace Store

def markerTables (tables : Store (Carrier U)) (g : GraphId) (id : StepId) :
    MarkerTables where
  aliases := tables.read (.perTree .aliases) ⟨g, id, .aliases⟩
  units := tables.read (.perTree .node) ⟨g, id, .units⟩
  globals := tables.read .aliases ⟨g, id, .globalAliases⟩
  found := tables.read (.perTree .scan) ⟨g, id, .found⟩
  output := tables.read .marked ⟨g, id, .output⟩

/-- Every step that is not left out has its tables, and no others. -/
def Shaped (tables : Store (Carrier U)) (options : Options) (g : GraphId)
    (graph : Graph U) : Prop :=
  ∀ {id s}, graph.step? id = some s → ∀ part,
    (tables.find? ⟨g, id, part⟩).map (·.type) =
      if options.disables s.kind then none else s.step.partType part

theorem Shaped.typed {tables : Store (Carrier U)} {options : Options}
    {g : GraphId} {graph : Graph U} (h : tables.Shaped options g graph) :
    tables.Typed g graph := by
  intro id s hs part t ht
  have hshape := h hs part
  rw [ht] at hshape
  split at hshape
  · contradiction
  · exact hshape.symm

structure Aligned (tables : Store (Carrier U)) (options : Options)
    (trees : List Tree) (texts : List TextFile) (g : GraphId)
    (graph : Graph U) : Prop where
  shaped : tables.Shaped options g graph
  ofTrees : ∀ {id s}, graph.step? id = some s → s.step = .trees →
    (tables.read .tree (.output g id)).values = trees
  ofTexts : ∀ {id s}, graph.step? id = some s → s.step = .texts →
    SameTexts (tables.read .text (.output g id)).values texts
  ofMarked : ∀ {id s}, graph.step? id = some s → ∀ input marker shape,
    s.step = .marked input marker shape →
      (tables.markerTables g id).Aligned trees

theorem read_of_find? {tables : Store (Carrier U)} {key : TableKey}
    {type : DataType} {t : Table (Carrier U type)}
    (h : tables.find? key = some ⟨type, t⟩) : tables.read type key = t := by
  rw [read, at?_eq_some.2 h]
  rfl

theorem read_settled {tables previous : Store (Carrier U)} {key : TableKey}
    (h : tables.find? key = (previous.find? key).map (·.settled))
    (type : DataType) :
    tables.read type key = (previous.read type key).settled := by
  rw [read, read, at?, at?, h]
  cases previous.find? key with
  | none => rfl
  | some t =>
      obtain ⟨type', t⟩ := t
      by_cases htype : type' = type
      · subst htype
        simp [AnyTable.settled]
      · simp [AnyTable.settled, AnyTable.at?, htype]
        rfl

end Store

theorem MarkerTables.Aligned.settled {t : MarkerTables} {trees : List Tree}
    (h : t.Aligned trees) : t.settled.Aligned trees where
  aliases := by rw [← h.aliases]; exact congrArg _ (Table.values_settled _)
  units := by rw [← h.units]; exact Table.values_settled _
  globals := by rw [← h.globals]; exact congrArg _ (Table.values_settled _)
  found := by rw [← h.found]; exact congrArg _ (Table.values_settled _)

namespace Step

variable {c : StepContext U} {s : Step U}

/-- The step finds all its tables of the last run, and no others. -/
def Resident (c : StepContext U) (s : Step U) : Prop :=
  ∀ part, (c.previous.find? (c.key part)).map (·.type) = s.partType part

theorem Resident.find? (h : Resident c s) (part : Part) {type : DataType}
    (hpart : s.partType part = some type) :
    ∃ t, c.previous.find? (c.key part) = some ⟨type, t⟩ ∧
      c.old? type part = some t := by
  have hshape := h part
  rw [hpart] at hshape
  obtain ⟨⟨type', t⟩, hfind, htype⟩ := Option.map_eq_some_iff.1 hshape
  obtain rfl : type' = type := htype
  exact ⟨t, hfind, Store.at?_eq_some.2 hfind⟩

private theorem Resident.find?_none (h : Resident c s) {part : Part}
    (hpart : s.partType part = none) :
    c.previous.find? (c.key part) = none := by
  have hshape := h part
  rwa [hpart, Option.map_eq_none_iff] at hshape

private theorem Resident.settled_ofOutput (h : Resident c s) {type : DataType}
    {w : Work (Table (Carrier U type))}
    (htype : ∀ part, s.partType part =
      if part = .output then some type else none)
    (hw : ∀ t, c.old? type .output = some t → w.tables = t.settled)
    (part : Part) :
    (StepResult.ofOutput type w).tables.lookup part =
      (c.previous.find? (c.key part)).map (·.settled) := by
  by_cases hpart : part = .output
  · subst hpart
    obtain ⟨t, hfind, hold⟩ := h.find? .output (htype _)
    rw [hfind, StepResult.ofOutput, hw t hold]
    rfl
  · rw [h.find?_none (by rw [htype, if_neg hpart])]
    cases part <;> first | rfl | contradiction

private theorem Resident.settled_ofKept (h : Resident c s) {beside : Part}
    {kept type : DataType}
    {w : Work (Table (Carrier U kept) × Table (Carrier U type))}
    (hbeside : beside ≠ .output)
    (htype : ∀ part, s.partType part =
      if part = .output then some type
      else if part = beside then some kept else none)
    (hw : ∀ t u, c.old? kept beside = some t → c.old? type .output = some u →
      w.tables = (t.settled, u.settled))
    (part : Part) :
    (StepResult.ofKept beside kept type w).tables.lookup part =
      (c.previous.find? (c.key part)).map (·.settled) := by
  obtain ⟨t, hfind, hold⟩ := h.find? beside
    (by rw [htype, if_neg hbeside, if_pos rfl])
  obtain ⟨u, hfind', hold'⟩ := h.find? .output (htype _)
  rw [StepResult.ofKept, hw t u hold hold']
  by_cases hout : part = .output
  · subst hout
    have hb : (Part.output == beside) = false := by
      simpa using hbeside.symm
    rw [hfind', List.lookup_cons, hb]
    rfl
  · by_cases hpart : part = beside
    · subst hpart
      rw [hfind, List.lookup_cons, beq_self_eq_true]
      rfl
    · have hb : (part == beside) = false := by simpa using hpart
      have hb' : (part == Part.output) = false := by simpa using hout
      rw [h.find?_none (by rw [htype, if_neg hout, if_neg hpart]),
        List.lookup_cons, hb, List.lookup_cons, hb']
      rfl

def IsPlain : Step U → Prop
  | .trees | .texts | .marked _ _ _ => False
  | _ => True

private theorem Resident.find?_eq (h : Resident c s) (part : Part) {type : DataType}
    (hpart : s.partType part = some type) :
    c.previous.find? (c.key part) =
      some ⟨type, c.previous.read type (c.key part)⟩ := by
  obtain ⟨t, hfind, -⟩ := h.find? part hpart
  rw [Store.read_of_find? hfind, hfind]

theorem Resident.old?_eq (h : Resident c s) (part : Part) {type : DataType}
    (hpart : s.partType part = some type) :
    c.old? type part = some (c.previous.read type (c.key part)) :=
  Store.at?_eq_some.2 (h.find?_eq part hpart)

variable [BEq U]

theorem Resident.evaluate_plain (h : Resident c s) (hplain : s.IsPlain)
    (hcached : ∀ x ∈ s.reads, (c.read x.2.2 x.1).isCached = true)
    (part : Part) :
    (s.evaluate c).tables.lookup part =
      (c.previous.find? (c.key part)).map (·.settled) := by
  cases s with
  | trees => exact hplain.elim
  | texts => exact hplain.elim
  | marked input marker shape => exact hplain.elim
  | filter input β accepts map =>
      have hin := hcached _ (List.mem_singleton_self _)
      refine h.settled_ofKept (by decide) (fun part => by cases part <;> rfl)
        (fun t u ht hu => ?_) part
      rw [ht, hu, Work.filter, hin]
      rfl
  | select input α β map =>
      have hin := hcached _ (List.mem_singleton_self _)
      refine h.settled_ofOutput (fun part => by cases part <;> rfl)
        (fun t ht => ?_) part
      rw [ht, Work.select, hin]
      rfl
  | selectValue input α β map =>
      have hin := hcached _ (List.mem_singleton_self _)
      refine h.settled_ofOutput (fun part => by cases part <;> rfl)
        (fun t ht => ?_) part
      rw [ht, Work.selectValue, hin]
      rfl
  | selectMany input α β map =>
      have hin := hcached _ (List.mem_singleton_self _)
      refine h.settled_ofKept (by decide) (fun part => by cases part <;> rfl)
        (fun t u ht hu => ?_) part
      rw [ht, hu, Work.selectMany, hin]
      rfl
  | collect input α =>
      have hin := hcached _ (List.mem_singleton_self _)
      refine h.settled_ofOutput (fun part => by cases part <;> rfl)
        (fun t ht => ?_) part
      rw [ht, Work.collect, hin]
      rfl
  | combine left right α β =>
      have hleft := hcached (left, .many, α) (by simp [reads])
      have hright := hcached (right, .one, β) (by simp [reads])
      refine h.settled_ofOutput (fun part => by cases part <;> rfl)
        (fun t ht => ?_) part
      rw [ht, Work.combine, hleft, hright]
      rfl
  | output input kind =>
      have hin := hcached _ (List.mem_singleton_self _)
      refine h.settled_ofOutput (fun part => by cases part <;> rfl)
        (fun t ht => ?_) part
      rw [ht, Work.output, hin]
      rfl

theorem Resident.evaluate_trees (h : Resident c .trees)
    (hvalues : (c.previous.read .tree (c.key .output)).values = c.trees)
    (hnodup : (c.trees.map (·.id)).Nodup) (part : Part) :
    (Step.trees.evaluate c).tables.lookup part =
      (c.previous.find? (c.key part)).map (·.settled) := by
  refine h.settled_ofOutput (fun part => by cases part <;> rfl)
    (fun t ht => ?_) part
  rw [Store.read_of_find? (Store.at?_eq_some.1 ht)] at hvalues
  rw [ht, ← hvalues]
  exact Work.trees_eq_settled (hvalues ▸ hnodup)

theorem Resident.evaluate_texts (h : Resident c .texts)
    (hvalues : SameTexts (c.previous.read .text (c.key .output)).values c.texts)
    (hnodup : (c.texts.map (·.path)).Nodup) (part : Part) :
    (Step.texts.evaluate c).tables.lookup part =
      (c.previous.find? (c.key part)).map (·.settled) := by
  refine h.settled_ofOutput (fun part => by cases part <;> rfl)
    (fun t ht => ?_) part
  rw [Store.read_of_find? (Store.at?_eq_some.1 ht)] at hvalues
  rw [ht]
  exact Work.texts_eq_settled hvalues hnodup

section Marked

variable {input : StepId} {marker : Marker} {shape : Shape}

omit [BEq U] in
theorem Resident.oldMarkerTables_eq
    (h : Resident c (.marked input marker shape)) :
    oldMarkerTables c =
      (c.previous.markerTables c.site.graph c.site.step).toOld := by
  have houtput : c.old? .marked .output =
      some (c.previous.read .marked (c.key .output)) := h.old?_eq .output rfl
  rw [oldMarkerTables, h.old?_eq .aliases rfl,
    h.old?_eq .units rfl, h.old?_eq .globalAliases rfl,
    h.old?_eq .found rfl, houtput]
  rfl

theorem Resident.evaluate_marked_output {trees : List Tree}
    (h : Resident c (.marked input marker shape))
    (haligned : (c.previous.markerTables c.site.graph c.site.step).Aligned trees)
    (hnodup : (trees.map (·.id)).Nodup)
    (hperm : (c.read .tree input).values.Perm trees)
    (hcached : (c.read .tree input).isCached = true) :
    ((Step.marked input marker shape).evaluate c).tables.lookup .output =
      (c.previous.find? (c.key .output)).map (·.settled) := by
  have houtput := (@Work.marked_of_isCached c.site marker shape _ _ _ haligned
    hnodup hperm hcached).2.2.2.2
  rw [h.find?_eq .output rfl, evaluate, h.oldMarkerTables_eq]
  change some (AnyTable.mk DataType.marked _) = some (AnyTable.mk _ _)
  rw [houtput]
  rfl

theorem Resident.evaluate_marked
    (h : Resident c (.marked input marker shape))
    (haligned : (c.previous.markerTables c.site.graph c.site.step).Aligned
      (c.read .tree input).values)
    (hnodup : ((c.read .tree input).values.map (·.id)).Nodup)
    (hcached : (c.read .tree input).isCached = true) (part : Part) :
    ((Step.marked input marker shape).evaluate c).tables.lookup part =
      (c.previous.find? (c.key part)).map (·.settled) := by
  rw [evaluate, h.oldMarkerTables_eq, StepResult.ofMarked,
    Work.marked_eq_settled haligned hnodup hcached]
  cases part with
  | perTree => rw [h.find?_none rfl]; rfl
  | perInput => rw [h.find?_none rfl]; rfl
  | _ => rw [h.find?_eq _ rfl]; rfl

end Marked

end Step

end Regen
