import Regen.Proofs.Run.Carried
import Regen.Proofs.Run.Outcome
import Regen.Proofs.Run.Walked

/-!
# Tables that are faithful to the inputs

With nothing to reuse, a step makes a plain list of values out of the values
that it reads.  A store is faithful where every table holds the plain values of
its step, up to what counts as the same, and where every step has kept what is
right for the values that it read.  A run finds a faithful store and leaves one,
as long as the files that remain keep their order.
-/

namespace Regen

open List (Forall₂)
open Syntax

variable {U : Type}

namespace Store

def reading (tables : Store (Carrier U)) (g : GraphId) (type : DataType)
    (id : StepId) : List (Carrier U type) :=
  (tables.read type (.output g id)).values

def keptMarkers (tables : Store (Carrier U)) (site : Site) :
    OldMarkerTables where
  aliases := tables.at? (.perTree .aliases) ⟨site.graph, site.step, .aliases⟩
  units := tables.at? (.perTree .node) ⟨site.graph, site.step, .units⟩
  globals := tables.at? .aliases ⟨site.graph, site.step, .globalAliases⟩
  found := tables.at? (.perTree .scan) ⟨site.graph, site.step, .found⟩
  output := tables.at? .marked ⟨site.graph, site.step, .output⟩

end Store

namespace Step

/--
The values that a step makes of those that it reads: for a walk the accepted or
the marked nodes, tree by tree.
-/
noncomputable def plain (trees : List Tree) (texts : List TextFile)
    (read : (type : DataType) → StepId → List (Carrier U type)) :
    (s : Step U) → List (Carrier U s.type)
  | .trees => trees
  | .texts => texts
  | .filter input _ accepts map =>
      (read .tree input).flatMap (mappedIn accepts map)
  | .marked input marker shape => markedIn marker shape (read .tree input)
  | .select input α _ map | .selectValue input α _ map =>
      (read α input).map map
  | .selectMany input α _ map => (read α input).flatMap map
  | .collect input α => [read α input]
  | .combine left right α β => Work.pairs (read α left) (read β right)
  | .output input _ => read .source input

variable [BEq U]

open Carrier (Alike)

/-- The maps of the step take what counts as the same to the same. -/
def Respects (known : TextFile → Prop) : Step U → Prop
  | .filter _ β _ map => ∀ t n, Alike known β (map t n) (map t n)
  | .select _ α β map | .selectValue _ α β map =>
      ∀ a b, Alike known α a b → Alike known β (map a) (map b)
  | .selectMany _ α β map =>
      ∀ a b, Alike known α a b → Forall₂ (Alike known β) (map a) (map b)
  | _ => True

/-- What the step keeps beside its output is right for the values it reads. -/
def Backed (known : TextFile → Prop) (tables : Store (Carrier U))
    (site : Site) : Step U → Prop
  | .filter input β accepts map =>
      ∀ t, tables.at? (.perTree (.list β))
          ⟨site.graph, site.step, .perTree⟩ = some t →
        Itemised (Work.Contributes (Alike known β) accepts map) t.values
          (tables.reading site.graph .tree input)
  | .selectMany input α β map =>
      ∀ t, tables.at? (.list β) ⟨site.graph, site.step, .perInput⟩ = some t →
        Forall₂ (Forall₂ (Alike known β)) t.values
          ((tables.reading site.graph α input).map map)
  | .marked input marker shape =>
      (tables.keptMarkers site).RightFor marker shape
        (tables.reading site.graph .tree input)
  | _ => True

structure Faithful (known : TextFile → Prop) (trees : List Tree)
    (texts : List TextFile) (tables : Store (Carrier U)) (site : Site)
    (s : Step U) : Prop where
  output : ∀ t, tables.at? s.type (.output site.graph site.step) = some t →
    Forall₂ (Alike known s.type) t.values
      (s.plain trees texts (tables.reading site.graph))
  backed : s.Backed known tables site

structure Upholds (known : TextFile → Prop) (c : StepContext U) (s : Step U) :
    Prop where
  faithful : s.Faithful known c.trees c.texts c.current c.site
  continues : Continues (Alike known s.type)
    (c.previous.read s.type (c.key .output))
    (c.current.read s.type (c.key .output))

end Step

/-- The files of two runs: those that remain keep their order. -/
structure KeepsOrder (known : TextFile → Prop) (trees : List Tree)
    (texts : List TextFile) (trees' : List Tree) (texts' : List TextFile) :
    Prop where
  ids : (trees.map (·.id)).Nodup
  paths : (texts.map (·.path)).Nodup
  treeOrder : SameOrder (trees.map (·.id)) (trees'.map (·.id))
  textOrder : SameOrder (texts.map (·.path)) (texts'.map (·.path))
  known : ∀ t ∈ texts', known t

theorem SameOrder.of_nil {κ : Type} [DecidableEq κ] (ys : List κ) :
    SameOrder [] ys := by
  simp [SameOrder]

namespace KeepsOrder

variable {known : TextFile → Prop} {trees trees' : List Tree}
  {texts texts' : List TextFile}

theorem of_nil (trees' : List Tree) (h : ∀ t ∈ texts', known t) :
    KeepsOrder known [] [] trees' texts' :=
  ⟨List.nodup_nil, List.nodup_nil, .of_nil _, .of_nil _, h⟩

variable (h : KeepsOrder known trees texts trees' texts')

include h

theorem succeeds {old : Option (Table Tree)}
    (hold : ∀ t, old = some t → t.values = trees) :
    Succeeds (old.getD .empty) (Work.trees trees' old).tables := by
  cases old with
  | none => exact Work.trees_succeeds List.nodup_nil (.of_nil _)
  | some t =>
      refine Work.trees_succeeds ?_ ?_
      · rw [Option.getD_some, hold t rfl]
        exact h.ids
      · rw [Option.getD_some, hold t rfl]
        exact h.treeOrder

theorem kept_texts {old : Option (Table TextFile)}
    (hold : ∀ t, old = some t → t.values = texts)
    (hcached : (Work.texts texts' old).tables.isCached = true) :
    (Work.texts texts' old).tables.values = (old.getD .empty).values := by
  cases old with
  | none => exact Work.kept_texts List.nodup_nil (.of_nil _) hcached
  | some t =>
      refine Work.kept_texts ?_ ?_ hcached
      · rw [Option.getD_some, hold t rfl]
        exact h.paths
      · rw [Option.getD_some, hold t rfl]
        exact h.textOrder

end KeepsOrder

private theorem eq_of_forall₂_text {known : TextFile → Prop} {as bs : List TextFile}
    (h : Forall₂ (fun a b => a = b ∧ known a) as bs) :
    as = bs ∧ ∀ a ∈ as, known a := by
  constructor
  · exact List.forall₂_eq_eq_eq ▸ h.imp fun _ _ hab => hab.1
  · intro a ha
    obtain ⟨i, hi, rfl⟩ := List.mem_iff_getElem.1 ha
    exact (h.get hi (h.length_eq ▸ hi)).2

private theorem forall₂_of_eq {α : Type} {R : α → α → Prop} {as bs : List α}
    (h : as = bs) (hself : ∀ b ∈ bs, R b b) : Forall₂ R as bs := by
  rw [h]
  exact List.forall₂_same.2 hself

namespace Step

open Carrier (Alike alike_decides)

variable [BEq U] {known : TextFile → Prop}

private theorem alike_plain {s : Step U} (respects : s.Respects known)
    {trees : List Tree} {texts : List TextFile}
    (htexts : ∀ t ∈ texts, known t)
    {read read' : (type : DataType) → StepId → List (Carrier U type)}
    (h : ∀ x ∈ s.reads,
      Forall₂ (Alike known x.2.2) (read x.2.2 x.1) (read' x.2.2 x.1)) :
    Forall₂ (Alike known s.type) (s.plain trees texts read)
      (s.plain trees texts read') := by
  cases s with
  | trees => exact List.forall₂_same.2 fun _ _ => rfl
  | texts => exact List.forall₂_same.2 fun t ht => ⟨rfl, htexts t ht⟩
  | filter input β accepts map =>
      have hin : read .tree input = read' .tree input :=
        List.forall₂_eq_eq_eq ▸ h _ (List.mem_singleton_self _)
      rw [plain, plain, hin]
      refine List.forall₂_same.2 fun b hb => ?_
      obtain ⟨t, -, hb⟩ := List.mem_flatMap.1 hb
      obtain ⟨n, -, rfl⟩ := List.mem_map.1 hb
      exact respects t n
  | marked input marker shape =>
      have hin : read .tree input = read' .tree input :=
        List.forall₂_eq_eq_eq ▸ h _ (List.mem_singleton_self _)
      rw [plain, plain, hin]
      exact List.forall₂_same.2 fun _ _ => rfl
  | select input α β map =>
      exact List.rel_map (fun a b => respects a b)
        (h _ (List.mem_singleton_self _))
  | selectValue input α β map =>
      exact List.rel_map (fun a b => respects a b)
        (h _ (List.mem_singleton_self _))
  | selectMany input α β map =>
      exact List.rel_flatMap (h _ (List.mem_singleton_self _))
        fun a b => respects a b
  | collect input α => exact .cons (h _ (List.mem_singleton_self _)) .nil
  | combine left right α β =>
      exact Work.forall₂_pairs (h (left, .many, α) (by simp [reads]))
        (h (right, .one, β) (by simp [reads]))
  | output input kind => exact h _ (List.mem_singleton_self _)

section Evaluate

variable [EquivBEq U] (free : CollisionFree known) {c : StepContext U}
  {s : Step U} {trees : List Tree} {texts : List TextFile}

include free

private theorem upholds_of_output {t : Table (Carrier U s.type)}
    (hat : c.current.at? s.type (c.key .output) = some t)
    (hvalues : Forall₂ (Alike known s.type) t.values
      (s.plain c.trees c.texts (c.current.reading c.site.graph)))
    (hkept : t.isCached = true →
      t.values = (c.previous.read s.type (c.key .output)).values)
    (hbacked : s.Backed known c.current c.site)
    (hold : s.Faithful known trees texts c.previous c.site) :
    s.Upholds known c := by
  have d := alike_decides (U := U) free s.type
  have hread : c.current.read s.type (c.key .output) = t := by
    rw [Store.read, hat]
    rfl
  constructor
  · refine ⟨fun t' ht' => ?_, hbacked⟩
    rwa [← Option.some.inj (hat.symm.trans ht')]
  · rw [hread]
    exact ⟨Work.self_getD fun t ht => d.self_of_mem (hold.output t ht),
      d.self_of_mem hvalues, hkept⟩

variable (hold : s.Faithful known trees texts c.previous c.site)
  (hfind : ∀ part, c.current.find? (c.key part) =
    (s.evaluate c).tables.lookup part)

omit [EquivBEq U] free in
private theorem at?_evaluate (hfind : ∀ part, c.current.find? (c.key part) =
      (s.evaluate c).tables.lookup part)
    (part : Part) (type : DataType) {t : Table (Carrier U type)}
    (h : (s.evaluate c).tables.lookup part = some ⟨type, t⟩) :
    c.current.at? type (c.key part) = some t :=
  Store.at?_eq_some.2 ((hfind part).trans h)

omit [EquivBEq U] free in
theorem keptMarkers_evaluate {input : StepId} {marker : Marker} {shape : Shape}
    (hfind : ∀ part, c.current.find? (c.key part) =
      ((Step.marked input marker shape).evaluate c).tables.lookup part) :
    c.current.keptMarkers c.site =
      (Work.marked c.site marker shape (c.read .tree input)
        (c.previous.keptMarkers c.site)).tables.1.toOld := by
  have hat := at?_evaluate hfind
  rw [Store.keptMarkers]
  exact OldMarkerTables.mk.injEq .. ▸
    ⟨hat .aliases _ rfl, hat .units _ rfl, hat .globalAliases _ rfl,
      hat .found _ rfl, hat .output _ rfl⟩

/-! ### The steps that read the input -/

include hold hfind

private theorem upholds_trees (hs : s = .trees)
    (order : KeepsOrder known trees texts c.trees c.texts) :
    s.Upholds known c := by
  subst hs
  have htrees : ∀ t, c.old? .tree .output = some t → t.values = trees :=
    fun t ht => List.forall₂_eq_eq_eq ▸ hold.output t ht
  exact upholds_of_output free (at?_evaluate hfind .output .tree rfl)
    (forall₂_of_eq (Work.values_trees _ _) fun _ _ => rfl)
    (order.succeeds htrees).kept trivial hold

private theorem upholds_texts (hs : s = .texts)
    (order : KeepsOrder known trees texts c.trees c.texts) :
    s.Upholds known c := by
  subst hs
  have htexts : ∀ t, c.old? .text .output = some t →
      t.values = texts ∧ ∀ text ∈ t.values, known text :=
    fun t ht => eq_of_forall₂_text (hold.output t ht)
  have hknown : ∀ text ∈ ((c.old? .text .output).getD .empty).values,
      known text :=
    Work.self_getD (R := fun a _ => known a) fun t ht => (htexts t ht).2
  exact upholds_of_output free (at?_evaluate hfind .output .text rfl)
    (forall₂_of_eq (Work.values_texts_of_known free hknown order.known)
      fun t ht => ⟨rfl, order.known t ht⟩)
    (order.kept_texts fun t ht => (htexts t ht).1) trivial hold

/-! ### The steps that walk trees -/

private theorem upholds_filter {input : StepId} {β : DataType}
    {accepts : Node → Bool} {map : Tree → Node → Carrier U β}
    (hs : s = .filter input β accepts map)
    (respects : ∀ t n, Alike known β (map t n) (map t n))
    (hin : Succeeds (c.oldRead .tree input) (c.read .tree input)) :
    s.Upholds known c := by
  subst hs
  have hvalues := @Work.values_filter _ c.site _ _ _ _ accepts map _ _
    (alike_decides free β) respects hin hold.backed hold.output
  refine upholds_of_output free (at?_evaluate hfind .output β rfl) hvalues.2
    Work.kept_filter (fun t ht => ?_) hold
  have hat := at?_evaluate hfind .perTree (.perTree (.list β)) rfl
  rw [← Option.some.inj (hat.symm.trans ht)]
  exact hvalues.1

private theorem upholds_marked {input : StepId} {marker : Marker} {shape : Shape}
    (hs : s = .marked input marker shape)
    (hin : Succeeds (c.oldRead .tree input) (c.read .tree input)) :
    s.Upholds known c := by
  subst hs
  have hright := @Work.marked_rightFor c.site _ _ _ _ _ hin hold.backed
  refine upholds_of_output free (at?_evaluate hfind .output .marked rfl)
    (forall₂_of_eq (hright.output _ rfl) fun _ _ => rfl)
    Work.kept_marked ?_ hold
  rw [Backed, keptMarkers_evaluate hfind]
  exact hright

/-! ### All steps -/

/--
One step of a run, over the outputs of the steps before it: it leaves tables
that are faithful and go on from those that it found.
-/
theorem upholds_evaluate (respects : s.Respects known)
    (order : KeepsOrder known trees texts c.trees c.texts)
    (hin : ∀ x ∈ s.reads, Continues (Alike known x.2.2)
      (c.oldRead x.2.2 x.1) (c.read x.2.2 x.1))
    (hwalk : ∀ input, s.walked? = some input →
      Succeeds (c.oldRead .tree input) (c.read .tree input)) :
    s.Upholds known c := by
  have d := alike_decides (U := U) free
  cases s with
  | trees => exact upholds_trees free hold hfind rfl order
  | texts => exact upholds_texts free hold hfind rfl order
  | filter input β accepts map =>
      exact upholds_filter free hold hfind rfl respects (hwalk input rfl)
  | marked input marker shape =>
      exact upholds_marked free hold hfind rfl (hwalk input rfl)
  | select input α β map =>
      exact upholds_of_output free (at?_evaluate hfind .output β rfl)
        (Work.values_select (d α) (d β) respects
          (hin _ (List.mem_singleton_self _)) hold.output)
        Work.kept_select trivial hold
  | selectValue input α β map =>
      exact upholds_of_output free (at?_evaluate hfind .output β rfl)
        (Work.values_selectValue (d β) respects
          (hin _ (List.mem_singleton_self _)) hold.output)
        Work.kept_selectValue trivial hold
  | selectMany input α β map =>
      have hvalues := @Work.values_selectMany _ _ _ _ _ _ c.site _ _ map _ _
        (d α) (d β) respects (hin _ (List.mem_singleton_self _)) hold.backed
        hold.output
      refine upholds_of_output free (at?_evaluate hfind .output β rfl)
        hvalues.2 Work.kept_selectMany (fun t ht => ?_) hold
      have hat := at?_evaluate hfind .perInput (.list β) rfl
      rw [← Option.some.inj (hat.symm.trans ht)]
      exact hvalues.1
  | collect input α =>
      exact upholds_of_output free (at?_evaluate hfind .output (.list α) rfl)
        (Work.values_collect (d α) (hin _ (List.mem_singleton_self _))
          hold.output)
        Work.kept_collect trivial hold
  | combine left right α β =>
      have hleft := hin (left, .many, α) (by simp [reads])
      have hright := hin (right, .one, β) (by simp [reads])
      exact upholds_of_output free
        (at?_evaluate hfind .output (.pair α β) rfl)
        (Work.values_combine (d α) (d β) hleft hright hold.output)
        Work.kept_combine trivial hold
  | output input kind =>
      exact upholds_of_output free (at?_evaluate hfind .output .source rfl)
        (Work.values_output (d .source) (hin _ (List.mem_singleton_self _))
          hold.output)
        Work.kept_output trivial hold

end Evaluate

end Step

/-! ## A whole graph -/

variable {graph : Graph U} {g : GraphId} {known : TextFile → Prop}

theorem RunContext.gather_eq_of_reading (w : graph.WellFormed)
    {options : Options} {tables tables' : Store (Carrier U)}
    (h : ∀ {id s input kind}, graph.step? id = some s →
      s.step = .output input kind → options.disables s.kind = false →
        tables.reading g .source id = tables'.reading g .source id) :
    gather options g graph tables = gather options g graph tables' := by
  unfold gather
  refine List.flatMap_congr fun x hx => ?_
  obtain ⟨s, input, hs, hstep, hout⟩ := w.enabled_step hx
  exact h hs hstep hout

namespace Store

variable {tables : Store (Carrier U)} {options : Options}

private theorem Shaped.at?_output (h : tables.Shaped options g graph) {id : StepId}
    {s : GraphStep U} (hs : graph.step? id = some s)
    (hout : options.disables s.kind = false) :
    tables.at? s.step.type (.output g id) =
      some (tables.read s.step.type (.output g id)) := by
  have hshape := h hs .output
  rw [hout, if_neg (by simp), Step.partType_output] at hshape
  obtain ⟨⟨type, t⟩, hfind, htype⟩ := Option.map_eq_some_iff.1 hshape
  obtain rfl : type = s.step.type := htype
  have hat : tables.at? s.step.type (.output g id) = some t :=
    at?_eq_some.2 hfind
  rw [read, hat]
  rfl

variable [BEq U]

structure Faithful (known : TextFile → Prop) (trees : List Tree)
    (texts : List TextFile) (tables : Store (Carrier U)) (g : GraphId)
    (graph : Graph U) : Prop where
  step : ∀ {id s}, graph.step? id = some s →
    s.step.Faithful known trees texts tables ⟨g, id⟩

theorem faithful_of_none (h : ∀ key, key.graph = g → tables.find? key = none)
    (trees : List Tree) (texts : List TextFile) :
    Faithful known trees texts tables g graph := by
  have hat : ∀ {type : DataType} {key : TableKey}, key.graph = g →
      tables.at? type key = none := by
    intro type key hkey
    rw [at?, h key hkey]
    rfl
  refine ⟨fun {id s} _ => ⟨fun t ht => ?_, ?_⟩⟩
  · rw [hat rfl] at ht
    contradiction
  · cases s.step with
    | filter input β accepts map =>
        intro t ht
        rw [hat rfl] at ht
        contradiction
    | selectMany input α β map =>
        intro t ht
        rw [hat rfl] at ht
        contradiction
    | marked input marker shape =>
        have hread : tables.reading g .tree input = [] := by
          rw [reading, read, hat rfl]
          rfl
        rw [Step.Backed, keptMarkers, hat rfl, hat rfl, hat rfl, hat rfl,
          hat rfl, hread]
        exact ⟨.nil, rfl, rfl, .nil, fun t ht => by contradiction⟩
    | _ => trivial

end Store

namespace RunContext

variable [BEq U] {r : RunContext U} {tables : Store (Carrier U)}
  {trees : List Tree} {texts : List TextFile}

section Solution

variable (w : graph.WellFormed) (h : r.full.Solves g graph tables)
  (order : KeepsOrder known trees texts r.trees r.texts)
  (hold : Store.Faithful known trees texts r.previous g graph)

include w h order hold

theorem Solves.succeeds {id : StepId} {s : GraphStep U}
    (hs : graph.step? id = some s) (hstep : s.step = .trees) :
    Succeeds (r.previous.read .tree (.output g id))
      (tables.read .tree (.output g id)) := by
  have hout := disables_of_step r.full.options hstep rfl
  have hread := h.read_of_runs w hs hstep hout (not_keeps_full s) .output
    .tree rfl
  have hfaithful := hold.step hs
  rw [hstep] at hfaithful
  rw [show tables.read .tree (.output g id) = _ from hread]
  exact order.succeeds fun t ht =>
    List.forall₂_eq_eq_eq ▸ hfaithful.output t ht

variable [EquivBEq U] (free : CollisionFree known)
  (respects : ∀ {id s}, graph.step? id = some s → s.step.Respects known)

include free respects

private theorem Solves.upholds {id : StepId} {s : GraphStep U}
    (hs : graph.step? id = some s)
    (hout : r.options.disables s.kind = false) :
    s.step.Upholds known (r.full.stepContext g id tables) := by
  obtain ⟨i⟩ := id
  induction i using Nat.strongRecOn generalizing s with
  | _ i ih =>
      refine Step.upholds_evaluate (c := r.full.stepContext g ⟨i⟩ tables) free
        (hold.step hs) (h.find?_of_runs w hs hout (not_keeps_full s))
        (respects hs) order (fun x hx => ?_) fun input hinput => ?_
      · obtain ⟨u, hu, hpromise⟩ := w.promised hs x hx
        have hlt : x.1.index < i := w.earlier_of_reads hs hx
        have hinput := (ih x.1.index hlt
          (Step.disables_of_promise? hpromise) hu).continues
        rwa [Step.type_of_promise? hpromise] at hinput
      · obtain ⟨u, hu, hutrees⟩ := w.walked hs input hinput
        exact h.succeeds w order hold hu hutrees

/-- A run leaves a store that is faithful to its inputs. -/
theorem Solves.faithful :
    Store.Faithful known r.trees r.texts tables g graph := by
  refine ⟨fun {id s} hs => ?_⟩
  cases hout : r.options.disables s.kind with
  | false => exact (h.upholds w order hold free respects hs hout).faithful
  | true =>
      refine ⟨fun t ht => ?_, ?_⟩
      · have hleft : r.full.options.disables s.kind = true := hout
        have hfind := h.step hs .output
        rw [published, if_pos hleft] at hfind
        have hthere := Store.at?_eq_some.1 ht
        rw [show tables.find? (.output g id) = none from hfind] at hthere
        contradiction
      · rw [GraphStep.kind] at hout
        cases hstep : s.step with
        | output input kind => trivial
        | _ =>
            rw [hstep] at hout
            contradiction

end Solution

end RunContext

namespace Store

variable [BEq U] [EquivBEq U] {tables tables' : Store (Carrier U)}
  {options : Options} {trees : List Tree} {texts : List TextFile}

theorem Faithful.alike (w : graph.WellFormed) (free : CollisionFree known)
    (respects : ∀ {id s}, graph.step? id = some s → s.step.Respects known)
    (htexts : ∀ t ∈ texts, known t) (shaped : tables.Shaped options g graph)
    (shaped' : tables'.Shaped options g graph)
    (h : Faithful known trees texts tables g graph)
    (h' : Faithful known trees texts tables' g graph) {id : StepId}
    {s : GraphStep U} (hs : graph.step? id = some s)
    (hout : options.disables s.kind = false) :
    Forall₂ (Carrier.Alike known s.step.type)
      (tables.reading g s.step.type id) (tables'.reading g s.step.type id) := by
  obtain ⟨i⟩ := id
  induction i using Nat.strongRecOn generalizing s with
  | _ i ih =>
      have d := (Carrier.alike_decides (U := U) free s.step.type).list
      have hplain := (h.step hs).output _ (shaped.at?_output hs hout)
      have hplain' := (h'.step hs).output _ (shaped'.at?_output hs hout)
      refine d.trans hplain (d.trans ?_ (d.symm hplain'))
      refine Step.alike_plain (respects hs) htexts fun x hx => ?_
      obtain ⟨u, hu, hpromise⟩ := w.promised hs x hx
      have hlt : x.1.index < i := w.earlier_of_reads hs hx
      have hinput := ih x.1.index hlt (Step.disables_of_promise? hpromise) hu
      rwa [Step.type_of_promise? hpromise] at hinput

theorem Faithful.gather_eq (w : graph.WellFormed) (free : CollisionFree known)
    (respects : ∀ {id s}, graph.step? id = some s → s.step.Respects known)
    (htexts : ∀ t ∈ texts, known t) (shaped : tables.Shaped options g graph)
    (shaped' : tables'.Shaped options g graph)
    (h : Faithful known trees texts tables g graph)
    (h' : Faithful known trees texts tables' g graph) :
    RunContext.gather options g graph tables =
      RunContext.gather options g graph tables' := by
  refine RunContext.gather_eq_of_reading w fun hs hstep hout => ?_
  have halike := h.alike w free respects htexts shaped shaped' h' hs hout
  rw [hstep] at halike
  exact List.forall₂_eq_eq_eq ▸ halike

end Store

end Regen
