import Regen.Graph.Builder

/-!
# Graphs that come out of a builder

A step reads only steps before it, at the types they put out; only filters and
marker selectors walk trees, and they read the step of the trees.  Every
sequence of registrations that finishes has built such a graph.  Handles of
other builders may take part in it at any time: the builder does not finish.
-/

namespace Regen

variable {U : Type}

namespace Step

/-- What a handle to the step promises.  No handle leads to an output. -/
def promise? : Step U → Option (Cardinality × DataType)
  | .trees => some (.many, .tree)
  | .texts => some (.many, .text)
  | .filter _ β _ _ | .select _ _ β _ | .selectMany _ _ β _ => some (.many, β)
  | .marked _ _ _ => some (.many, .marked)
  | .selectValue _ _ β _ => some (.one, β)
  | .collect _ α => some (.one, .list α)
  | .combine _ _ α β => some (.many, .pair α β)
  | .output _ _ => none

/-- The steps that a step reads, with what their handles promise. -/
def reads : Step U → List (StepId × Cardinality × DataType)
  | .trees | .texts => []
  | .filter input _ _ _ | .marked input _ _ => [(input, .many, .tree)]
  | .select input α _ _ | .selectMany input α _ _ | .collect input α =>
      [(input, .many, α)]
  | .selectValue input α _ _ => [(input, .one, α)]
  | .combine left right α β => [(left, .many, α), (right, .one, β)]
  | .output input _ => [(input, .many, .source)]

def walked? : Step U → Option StepId
  | .filter input _ _ _ | .marked input _ _ => some input
  | _ => none

theorem map_fst_reads (s : Step U) : s.reads.map (·.1) = s.kind.inputs := by
  cases s <;> rfl

theorem type_of_promise? {s : Step U} {c : Cardinality} {α : DataType}
    (h : s.promise? = some (c, α)) : s.type = α := by
  cases s <;> simp_all [promise?, type]

end Step

namespace Graph

def step? (graph : Graph U) (id : StepId) : Option (GraphStep U) :=
  graph.steps[id.index]?

structure WellFormed (graph : Graph U) : Prop where
  id_eq : ∀ {id s}, graph.step? id = some s → s.id = id
  earlier : ∀ {id s}, graph.step? id = some s →
    ∀ input ∈ s.kind.inputs, input.index < id.index
  promised : ∀ {id s}, graph.step? id = some s → ∀ x ∈ s.step.reads,
    ∃ u, graph.step? x.1 = some u ∧ u.step.promise? = some x.2
  walked : ∀ {id s}, graph.step? id = some s →
    ∀ input, s.step.walked? = some input →
      ∃ u, graph.step? input = some u ∧ u.step = .trees
  readsTexts_iff : ∀ {id s}, graph.step? id = some s →
    (s.readsTexts = true ↔ s.kind = .texts ∨
      ∃ input ∈ s.kind.inputs, ∃ u, graph.step? input = some u ∧
        u.readsTexts = true)
  outputs_eq : graph.outputs =
    graph.steps.filterMap fun s => s.kind.outputKind?.map (s.id, ·)

theorem step?_append_of_some {steps : List (GraphStep U)}
    {outputs outputs' : List (StepId × OutputKind)} {id : StepId}
    {s u : GraphStep U} (h : step? ⟨steps, outputs⟩ id = some u) :
    step? ⟨steps ++ [s], outputs'⟩ id = some u := by
  obtain ⟨hlt, -⟩ := List.getElem?_eq_some_iff.1 h
  rw [step?, List.getElem?_append_left hlt]
  exact h

theorem step?_append {steps : List (GraphStep U)}
    {outputs : List (StepId × OutputKind)}
    (outputs' : List (StepId × OutputKind)) {id : StepId}
    {s u : GraphStep U} (h : step? ⟨steps ++ [s], outputs⟩ id = some u) :
    step? ⟨steps, outputs'⟩ id = some u ∨ id = ⟨steps.length⟩ ∧ u = s := by
  rw [step?] at h
  by_cases hlt : id.index < steps.length
  · rw [List.getElem?_append_left hlt] at h
    exact .inl h
  · rw [List.getElem?_append_right (by omega), List.getElem?_singleton] at h
    split at h
    · next heq =>
      refine .inr ⟨?_, (Option.some.inj h).symm⟩
      obtain ⟨i⟩ := id
      simp only [StepId.mk.injEq] at heq hlt ⊢
      omega
    · contradiction

theorem WellFormed.index_lt {graph : Graph U} {id : StepId} {s : GraphStep U}
    (h : graph.step? id = some s) : id.index < graph.steps.length :=
  (List.getElem?_eq_some_iff.1 h).1

theorem WellFormed.earlier_of_reads {graph : Graph U} (w : graph.WellFormed)
    {id : StepId} {s : GraphStep U} (hs : graph.step? id = some s)
    {x : StepId × Cardinality × DataType} (hx : x ∈ s.step.reads) :
    x.1.index < id.index := by
  refine w.earlier hs x.1 ?_
  rw [GraphStep.kind, ← Step.map_fst_reads]
  exact List.mem_map_of_mem hx

theorem WellFormed.readsTexts_of_reads {graph : Graph U} (w : graph.WellFormed)
    {id : StepId} {s u : GraphStep U} (hs : graph.step? id = some s)
    (htexts : s.readsTexts = false) {x : StepId × Cardinality × DataType}
    (hx : x ∈ s.step.reads) (hu : graph.step? x.1 = some u) :
    u.readsTexts = false := by
  cases hreads : u.readsTexts with
  | false => rfl
  | true =>
      have hinput : x.1 ∈ s.kind.inputs := by
        rw [GraphStep.kind, ← Step.map_fst_reads]
        exact List.mem_map_of_mem hx
      have hboth := (w.readsTexts_iff hs).2 (.inr ⟨x.1, hinput, u, hu, hreads⟩)
      rw [htexts] at hboth
      contradiction

theorem WellFormed.ne_texts {graph : Graph U} (w : graph.WellFormed)
    {id : StepId} {s : GraphStep U} (hs : graph.step? id = some s)
    (htexts : s.readsTexts = false) : s.step ≠ .texts := by
  intro hstep
  have hreads : s.readsTexts = true := by
    rw [w.readsTexts_iff hs, GraphStep.kind, hstep]
    exact .inl rfl
  rw [htexts] at hreads
  contradiction

theorem WellFormed.empty : WellFormed (U := U) ⟨[], []⟩ where
  id_eq h := by simp [step?] at h
  earlier h := by simp [step?] at h
  promised h := by simp [step?] at h
  walked h := by simp [step?] at h
  readsTexts_iff h := by simp [step?] at h
  outputs_eq := rfl

private theorem reads_texts_append_iff {steps : List (GraphStep U)}
    {outputs : List (StepId × OutputKind)} (s : GraphStep U)
    (outputs' : List (StepId × OutputKind)) {kind : StepKind}
    (h : ∀ input ∈ kind.inputs, input.index < steps.length) :
    (∃ input ∈ kind.inputs, ∃ v, step? ⟨steps, outputs⟩ input = some v ∧
        v.readsTexts = true) ↔
      ∃ input ∈ kind.inputs, ∃ v,
        step? ⟨steps ++ [s], outputs'⟩ input = some v ∧
          v.readsTexts = true := by
  constructor
  · rintro ⟨input, hinput, v, hv, htexts⟩
    exact ⟨input, hinput, v, step?_append_of_some hv, htexts⟩
  · rintro ⟨input, hinput, v, hv, htexts⟩
    rcases step?_append outputs hv with hv | ⟨rfl, -⟩
    · exact ⟨input, hinput, v, hv, htexts⟩
    · -- the new step would have to read itself
      exact absurd (h _ hinput) (Nat.lt_irrefl _)

theorem WellFormed.append {steps : List (GraphStep U)}
    {outputs : List (StepId × OutputKind)} (w : WellFormed ⟨steps, outputs⟩)
    (s : GraphStep U) (hid : s.id = ⟨steps.length⟩)
    (hpromised : ∀ x ∈ s.step.reads, ∃ u, step? ⟨steps, outputs⟩ x.1 = some u ∧
      u.step.promise? = some x.2)
    (hwalked : ∀ input, s.step.walked? = some input →
      ∃ u, step? ⟨steps, outputs⟩ input = some u ∧ u.step = .trees)
    (htexts : s.readsTexts = true ↔ s.kind = .texts ∨
      ∃ input ∈ s.kind.inputs, ∃ u, step? ⟨steps, outputs⟩ input = some u ∧
        u.readsTexts = true) :
    WellFormed ⟨steps ++ [s],
      outputs ++ (s.kind.outputKind?.map (s.id, ·)).toList⟩ := by
  have hearlier : ∀ input ∈ s.kind.inputs, input.index < steps.length := by
    intro input hinput
    rw [GraphStep.kind, ← Step.map_fst_reads, List.mem_map] at hinput
    obtain ⟨x, hx, rfl⟩ := hinput
    obtain ⟨u, hu, -⟩ := hpromised x hx
    exact WellFormed.index_lt hu
  constructor
  case id_eq =>
    intro id u hu
    rcases step?_append outputs hu with hu | ⟨rfl, rfl⟩
    · exact w.id_eq hu
    · exact hid
  case earlier =>
    intro id u hu
    rcases step?_append outputs hu with hu | ⟨rfl, rfl⟩
    · exact w.earlier hu
    · exact hearlier
  case promised =>
    intro id u hu x hx
    have hold : ∃ v, step? ⟨steps, outputs⟩ x.1 = some v ∧
        v.step.promise? = some x.2 := by
      rcases step?_append outputs hu with hu | ⟨rfl, rfl⟩
      · exact w.promised hu x hx
      · exact hpromised x hx
    obtain ⟨v, hv, hpromise⟩ := hold
    exact ⟨v, step?_append_of_some hv, hpromise⟩
  case walked =>
    intro id u hu input hinput
    have hold : ∃ v, step? ⟨steps, outputs⟩ input = some v ∧
        v.step = .trees := by
      rcases step?_append outputs hu with hu | ⟨rfl, rfl⟩
      · exact w.walked hu input hinput
      · exact hwalked input hinput
    obtain ⟨v, hv, htrees⟩ := hold
    exact ⟨v, step?_append_of_some hv, htrees⟩
  case readsTexts_iff =>
    intro id u hu
    rcases step?_append outputs hu with hu | ⟨rfl, rfl⟩
    · have hlt := WellFormed.index_lt hu
      rw [w.readsTexts_iff hu, reads_texts_append_iff s _ fun input hinput =>
        Nat.lt_trans (w.earlier hu input hinput) hlt]
    · rw [htexts, reads_texts_append_iff _ _ hearlier]
  case outputs_eq =>
    have houtputs := w.outputs_eq
    dsimp only at houtputs ⊢
    rw [List.filterMap_append, ← houtputs]
    cases hkind : s.kind.outputKind? <;> simp [hkind]

theorem WellFormed.outputs_step {graph : Graph U} (w : graph.WellFormed)
    {x : StepId × OutputKind} (hx : x ∈ graph.outputs) :
    ∃ s input, graph.step? x.1 = some s ∧ s.step = .output input x.2 := by
  rw [w.outputs_eq, List.mem_filterMap] at hx
  obtain ⟨s, hs, houtput⟩ := hx
  obtain ⟨kind, hkind, rfl⟩ := Option.map_eq_some_iff.1 houtput
  obtain ⟨i, hi⟩ := List.mem_iff_getElem?.1 hs
  have hat : graph.step? ⟨i⟩ = some s := hi
  have hfound : graph.step? s.id = some s := by
    rw [w.id_eq hat]
    exact hat
  rw [GraphStep.kind] at hkind
  cases hstep : s.step with
  | output input kind' =>
      rw [hstep] at hkind
      obtain rfl : kind' = kind := Option.some.inj hkind
      exact ⟨s, input, hfound, hstep⟩
  | _ =>
      rw [hstep] at hkind
      contradiction

/-! ## Names do not matter -/

end Graph

def GraphStep.nameless (s : GraphStep U) : GraphStep U :=
  { s with name := none }

namespace Graph

def SameButNames (steps steps' : List (GraphStep U)) : Prop :=
  steps.map GraphStep.nameless = steps'.map GraphStep.nameless

variable {steps steps' : List (GraphStep U)}
  {outputs : List (StepId × OutputKind)}

theorem sameButNames_modify (steps : List (GraphStep U)) (i : Nat)
    (name : String) :
    SameButNames steps (steps.modify i fun s => { s with name := some name }) := by
  refine List.ext_getElem? fun j => ?_
  rw [List.getElem?_map, List.getElem?_map, List.getElem?_modify]
  cases steps[j]? with
  | none => simp
  | some s => by_cases hj : i = j <;> simp [hj, GraphStep.nameless]

theorem SameButNames.step? (h : SameButNames steps steps') {id : StepId}
    {s : GraphStep U} (hs : step? ⟨steps, outputs⟩ id = some s) :
    ∃ s', Graph.step? ⟨steps', outputs⟩ id = some s' ∧ s'.id = s.id ∧
      s'.step = s.step ∧ s'.readsTexts = s.readsTexts := by
  have hget : steps[id.index]?.map GraphStep.nameless =
      steps'[id.index]?.map GraphStep.nameless := by
    rw [← List.getElem?_map, ← List.getElem?_map, h]
  rw [show steps[id.index]? = some s from hs, Option.map_some] at hget
  obtain ⟨s', hs', hsame⟩ := Option.map_eq_some_iff.1 hget.symm
  simp only [GraphStep.nameless, GraphStep.mk.injEq, true_and] at hsame
  exact ⟨s', hs', hsame⟩

theorem WellFormed.rename (w : WellFormed ⟨steps, outputs⟩)
    (h : SameButNames steps steps') : WellFormed ⟨steps', outputs⟩ := by
  have hback : SameButNames steps' steps := Eq.symm h
  constructor
  case id_eq =>
    intro id s hs
    obtain ⟨u, hu, hid, -, -⟩ := hback.step? hs
    rw [← hid, w.id_eq hu]
  case earlier =>
    intro id s hs
    obtain ⟨u, hu, -, hstep, -⟩ := hback.step? hs
    rw [GraphStep.kind, ← hstep]
    exact w.earlier hu
  case promised =>
    intro id s hs x hx
    obtain ⟨u, hu, -, hstep, -⟩ := hback.step? hs
    obtain ⟨v, hv, hpromise⟩ := w.promised hu x (hstep ▸ hx)
    obtain ⟨v', hv', -, hstep', -⟩ := h.step? hv
    exact ⟨v', hv', hstep' ▸ hpromise⟩
  case walked =>
    intro id s hs input hinput
    obtain ⟨u, hu, -, hstep, -⟩ := hback.step? hs
    obtain ⟨v, hv, htrees⟩ := w.walked hu input (hstep ▸ hinput)
    obtain ⟨v', hv', -, hstep', -⟩ := h.step? hv
    exact ⟨v', hv', hstep'.trans htrees⟩
  case readsTexts_iff =>
    intro id s hs
    obtain ⟨u, hu, -, hstep, htexts⟩ := hback.step? hs
    rw [← htexts, w.readsTexts_iff hu, GraphStep.kind, GraphStep.kind, hstep]
    refine or_congr_right (exists_congr fun input => and_congr_right fun _ => ?_)
    constructor
    · rintro ⟨v, hv, hreads⟩
      obtain ⟨v', hv', -, -, htexts'⟩ := h.step? hv
      exact ⟨v', hv', htexts'.trans hreads⟩
    · rintro ⟨v, hv, hreads⟩
      obtain ⟨v', hv', -, -, htexts'⟩ := hback.step? hv
      exact ⟨v', hv', htexts'.trans hreads⟩
  case outputs_eq =>
    have houtput : ∀ steps : List (GraphStep U),
        (steps.filterMap fun s => s.kind.outputKind?.map (s.id, ·)) =
          (steps.map GraphStep.nameless).filterMap fun s =>
            s.kind.outputKind?.map (s.id, ·) := by
      intro steps
      rw [List.filterMap_map]
      rfl
    have houtputs := w.outputs_eq
    dsimp only at houtputs ⊢
    rw [houtputs, houtput, h, ← houtput]

end Graph

end Regen
