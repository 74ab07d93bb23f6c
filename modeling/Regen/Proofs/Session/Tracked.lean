import Regen.Proofs.Session.Rerun

/-!
# Tracked steps

A run that tracks its steps reports each step that has a name and is not left
out, in the order of evaluation.  A full run reports the four parts of a marker
selector in front of it.  A run that absorbs edits keeps the tables of all these
parts, and yet it reports the selector alone.
-/

namespace Regen

open RunContext

variable {U : Type}

def StepRun.label (x : StepRun) : String × StepId :=
  (x.name, x.step)

def GeneratorRun.labels (run : GeneratorRun) : List (String × StepId) :=
  run.steps.map (·.label)

/-- The parts of a step that a full run tracks on their own. -/
def Step.trackedParts : Step U → List String
  | .marked _ _ _ => ["aliases", "units", "global_aliases", "matches"]
  | _ => []

namespace GraphStep

def labelsWith (s : GraphStep U) (parts : List String) :
    List (String × StepId) :=
  match s.name with
  | some name =>
      parts.map (fun part => (name ++ "." ++ part, s.id)) ++ [(name, s.id)]
  | none => []

def labels (s : GraphStep U) : Mode → List (String × StepId)
  | .full => s.labelsWith s.step.trackedParts
  | .edits => s.labelsWith []

def IsNamedSelector (s : GraphStep U) : Prop :=
  s.name.isSome = true ∧ s.step.trackedParts ≠ []

private theorem length_labels_edits_le (s : GraphStep U) :
    (s.labels .edits).length ≤ (s.labels .full).length := by
  rw [labels, labels, labelsWith, labelsWith]
  cases s.name <;> simp

private theorem labels_edits_eq_full_iff (s : GraphStep U) :
    s.labels .edits = s.labels .full ↔ ¬ s.IsNamedSelector := by
  rw [labels, labels, labelsWith, labelsWith, IsNamedSelector]
  cases s.name with
  | none => simp
  | some name => simp

end GraphStep

/-- What a run in this mode reports of the steps of a generator. -/
def Generator.labels (generator : Generator U) (options : Options)
    (mode : Mode) : List (String × StepId) :=
  generator.graph.steps.flatMap fun s =>
    if options.disables s.kind then [] else s.labels mode

private theorem GraphStep.disables_of_trackedParts {s : GraphStep U}
    (options : Options) (h : s.step.trackedParts ≠ []) :
    options.disables s.kind = false := by
  cases hstep : s.step with
  | marked input marker shape => exact disables_of_step options hstep rfl
  | _ => simp [hstep, Step.trackedParts] at h

/-! ## What the modes leave out -/

section

variable {α β : Type} {f f' : α → List β} {as : List α}
  (hle : ∀ a ∈ as, (f a).length ≤ (f' a).length)

include hle

private theorem length_flatMap_le :
    (as.flatMap f).length ≤ (as.flatMap f').length := by
  induction as with
  | nil => exact Nat.le_refl _
  | cons a as ih =>
      rw [List.forall_mem_cons] at hle
      have hrest := ih hle.2
      simp only [List.flatMap_cons, List.length_append]
      omega

private theorem eq_of_flatMap_eq (h : as.flatMap f = as.flatMap f') :
    ∀ a ∈ as, f a = f' a := by
  induction as with
  | nil => simp
  | cons a as ih =>
      rw [List.forall_mem_cons] at hle ⊢
      rw [List.flatMap_cons, List.flatMap_cons] at h
      have hrest := length_flatMap_le hle.2
      have hlength := congrArg List.length h
      rw [List.length_append, List.length_append] at hlength
      obtain ⟨hfirst, hrest⟩ := List.append_inj h (by omega)
      exact ⟨hfirst, ih hle.2 hrest⟩

end

private theorem Generator.labels_edits_eq_full_iff (generator : Generator U)
    (options : Options) :
    generator.labels options .edits = generator.labels options .full ↔
      ∀ s ∈ generator.graph.steps, ¬ s.IsNamedSelector := by
  constructor
  · intro h s hs hselector
    have hle : ∀ s ∈ generator.graph.steps,
        (if options.disables s.kind then [] else s.labels .edits).length ≤
          (if options.disables s.kind then [] else s.labels .full).length := by
      intro s _
      split
      · exact Nat.le_refl _
      · exact s.length_labels_edits_le
    have hsame := eq_of_flatMap_eq hle h s hs
    rw [GraphStep.disables_of_trackedParts options hselector.2] at hsame
    exact s.labels_edits_eq_full_iff.1 hsame hselector
  · intro h
    refine List.flatMap_congr fun s hs => ?_
    rw [s.labels_edits_eq_full_iff.2 (h s hs)]

/-! ## One run -/

private theorem Graph.WellFormed.readsTexts_of_walked? {graph : Graph U}
    (w : graph.WellFormed) {id : StepId} {s : GraphStep U}
    (hs : graph.step? id = some s) {input : StepId}
    (hinput : s.step.walked? = some input) : s.readsTexts = false := by
  obtain ⟨u, hu, htrees⟩ := w.walked hs input hinput
  have hblind : u.readsTexts = false := by
    have hreads := w.readsTexts_iff hu
    simp only [GraphStep.kind, htrees, Step.kind, StepKind.inputs] at hreads
    simpa using hreads
  have hreads := w.readsTexts_iff hs
  have hone : s.kind ≠ .texts ∧ s.kind.inputs = [input] := by
    rw [GraphStep.kind]
    cases hstep : s.step <;> simp_all [Step.walked?, Step.kind, StepKind.inputs]
  rw [hone.2] at hreads
  simp only [hone.1, false_or, List.mem_singleton, exists_eq_left, hu,
    Option.some.injEq, exists_eq_left', hblind, Bool.false_eq_true,
    iff_false] at hreads
  simpa using hreads

namespace RunContext

variable [BEq U] {r : RunContext U} {g : GraphId} {graph : Graph U}

private theorem suffix_subSteps (c : StepContext U) (s : Step U) :
    (s.evaluate c).subSteps.map (·.suffix) = s.trackedParts := by
  cases s <;> rfl

omit [BEq U] in
private theorem label_track (htrack : r.options.trackSteps = true) (s : GraphStep U)
    (subSteps : List SubStep) (states : List Provenance) (executions : Nat) :
    (r.track s subSteps states executions).map (·.label) =
      s.labelsWith (subSteps.map (·.suffix)) := by
  rw [track, htrack, GraphStep.labelsWith]
  cases s.name with
  | none => rfl
  | some name => simp [StepRun.label]

omit [BEq U] in
private theorem keeps_of_trackedParts (w : graph.WellFormed)
    {id : StepId} {s : GraphStep U} (hs : graph.step? id = some s)
    (hmode : r.mode = .edits)
    (shaped : r.previous.Shaped r.options g graph)
    (hparts : s.step.trackedParts ≠ []) : r.Keeps g s := by
  have hwalked : ∃ input, s.step.walked? = some input := by
    cases hstep : s.step <;> simp_all [Step.trackedParts, Step.walked?]
  obtain ⟨input, hinput⟩ := hwalked
  refine ⟨⟨hmode, w.readsTexts_of_walked? hs hinput⟩, ?_⟩
  have hshape := shaped hs .output
  rw [GraphStep.disables_of_trackedParts r.options hparts, Step.partType_output]
    at hshape
  rw [w.id_eq hs, Store.contains, TableKey.output, ← Option.isSome_map, hshape]
  rfl

private theorem labels_reported (w : graph.WellFormed)
    (htrack : r.options.trackSteps = true)
    (shaped : r.mode = .edits → r.previous.Shaped r.options g graph)
    (tables : Store (Carrier U)) {id : StepId} {s : GraphStep U}
    (hs : graph.step? id = some s) :
    (r.reported g s tables).map (·.label) =
      if r.options.disables s.kind then [] else s.labels r.mode := by
  cases hout : r.options.disables s.kind with
  | true =>
      rw [reported, if_pos hout]
      rfl
  | false =>
      have hruns : ¬ r.Keeps g s → (r.reported g s tables).map (·.label) =
          s.labelsWith s.step.trackedParts := by
        intro hkeeps
        rw [reported_of_runs hout hkeeps, label_track htrack,
          suffix_subSteps]
      cases hmode : r.mode with
      | full => exact hruns (not_keeps_of_full hmode g s)
      | edits =>
          by_cases hkeeps : r.Keeps g s
          · rw [reported, hout, if_neg (by simp), if_pos hkeeps,
              label_track htrack]
            rfl
          · have hplain : s.step.trackedParts = [] := by
              by_contra hparts
              exact hkeeps
                (keeps_of_trackedParts w hs hmode (shaped hmode) hparts)
            rw [hruns hkeeps, hplain]
            rfl

private theorem labels_runsAll {generators : List (Generator U)}
    (w : ∀ generator ∈ generators, generator.graph.WellFormed)
    (htrack : r.options.trackSteps = true)
    (shaped : r.mode = .edits → ∀ i generator,
      generators[i]? = some generator →
        r.previous.Shaped r.options ⟨i⟩ generator.graph)
    (tables : Store (Carrier U)) :
    (r.runsAll tables 0 generators).map (·.labels) =
      generators.map (·.labels r.options r.mode) := by
  refine List.ext_getElem? fun i => ?_
  rw [List.getElem?_map, List.getElem?_map, getElem?_runsAll]
  cases hi : generators[i]? with
  | none => rfl
  | some generator =>
      refine congrArg some ?_
      change List.map StepRun.label (List.flatMap _ _) = List.flatMap _ _
      rw [Nat.zero_add, List.map_flatMap]
      refine List.flatMap_congr fun s hs => ?_
      obtain ⟨id, hs⟩ := Graph.step?_of_mem hs
      exact labels_reported (w generator (List.mem_of_getElem? hi)) htrack
        (fun hmode => shaped hmode i generator hi) tables hs

end RunContext

/-! ## Any two runs -/

namespace Session

def labels (s : Session U) : List (List (String × StepId)) :=
  match s.lastRun with
  | some last => last.result.generators.map (·.labels)
  | none => []

variable [BEq U] {generators : List (Generator U)} {options : Options}
  {s s' t t' : Session U} {o p : Operation} {job task : Job}

private theorem Reached.labels_eq
    (w : ∀ generator ∈ generators, generator.graph.WellFormed)
    (htrack : options.trackSteps = true)
    (h : Reached anyOperation generators options s)
    (hjob : s.job? o = some job) (hok : (s.perform o).outcome = .ok s') :
    s'.labels = generators.map (·.labels options job.mode) := by
  obtain ⟨rfl, rfl, aligned⟩ := h.generators_eq w
  have follows := follows_of_job? hjob
  rcases outcome_perform hjob with ⟨-, hcancelled⟩ | hout
  · rw [hcancelled] at hok
    contradiction
  · rw [hout] at hok
    obtain ⟨final, -, -, -, -, rfl, -⟩ :=
      executeJob_publishes w aligned follows hok
    refine labels_runsAll (r := s.context job) w htrack
      (fun hmode i generator hi => ?_) final
    obtain ⟨last, hlast, -⟩ := follows hmode
    exact (aligned.tables last hlast i generator hi).shaped

/--
Every run reports the steps of its mode, whatever the run before was.  Two runs
report the same steps if they are of the same mode; runs of both modes do so
exactly if no generator has a named marker selector.
-/
theorem labels_eq_iff (built : ∀ g ∈ generators, g.Built)
    (htrack : options.trackSteps = true)
    (h : Reached anyOperation generators options s)
    (hjob : s.job? o = some job) (hok : (s.perform o).outcome = .ok s')
    (h' : Reached anyOperation generators options t)
    (htask : t.job? p = some task) (hok' : (t.perform p).outcome = .ok t') :
    s'.labels = generators.map (·.labels options job.mode) ∧
      t'.labels = generators.map (·.labels options task.mode) ∧
      (s'.labels = t'.labels ↔ job.mode = task.mode ∨
        ∀ generator ∈ generators, ∀ gs ∈ generator.graph.steps,
          ¬ gs.IsNamedSelector) := by
  have w : ∀ generator ∈ generators, generator.graph.WellFormed :=
    fun g hg => (built g hg).wellFormed
  have hlabels := h.labels_eq w htrack hjob hok
  have hlabels' := h'.labels_eq w htrack htask hok'
  have hmodes : generators.map (·.labels options .edits) =
      generators.map (·.labels options .full) ↔
        ∀ generator ∈ generators, ∀ gs ∈ generator.graph.steps,
          ¬ gs.IsNamedSelector := by
    rw [List.map_inj_left]
    exact forall₂_congr fun generator _ =>
      generator.labels_edits_eq_full_iff options
  refine ⟨hlabels, hlabels', ?_⟩
  rw [hlabels, hlabels', ← hmodes]
  cases job.mode <;> cases task.mode <;> simp [eq_comm]

end Session

/-! ## A census that absorbs a text -/

namespace Census

open Session

def polled : Session Unit :=
  (blank.perform (.run apart .never)).outcome.toOption.getD blank

def repolled : Session Unit :=
  (polled.perform
    (.absorbEdits [.add Lister.note] apart .never)).outcome.toOption.getD blank

private theorem outcome_polled :
    (blank.perform (.run apart .never)).outcome = .ok polled :=
  ok_of_isSome blank (by decide +kernel)

private theorem outcome_repolled :
    (polled.perform (.absorbEdits [.add Lister.note] apart .never)).outcome =
      .ok repolled :=
  ok_of_isSome blank (by decide +kernel)

private theorem absorbs?_polled :
    ([TextEdit.add Lister.note].foldl enqueue polled).absorbs? apart =
      some [Lister.note] := by
  decide +kernel

theorem polled_labels_eq_iff :
    polled.labels = [generator.labels { trackSteps := true } .full] ∧
      repolled.labels = [generator.labels { trackSteps := true } .edits] ∧
      (polled.labels = repolled.labels ↔ Mode.full = Mode.edits ∨
        ∀ g ∈ [generator], ∀ gs ∈ g.graph.steps, ¬ gs.IsNamedSelector) :=
  labels_eq_iff (o := .run apart .never)
    (p := .absorbEdits [.add Lister.note] apart .never) built rfl .start rfl
    outcome_polled (.step .start trivial outcome_polled)
    (congrArg (Option.map (Job.mk .edits apart)) absorbs?_polled)
    outcome_repolled

/-- The parts of the selector are reported once, and then no more. -/
theorem labels_lost :
    (blank.perform (.run apart .never)).outcome = .ok polled ∧
      (polled.perform (.absorbEdits [.add Lister.note] apart .never)).outcome =
        .ok repolled ∧
      polled.labels = [[("classes", ⟨1⟩), ("counted.aliases", ⟨2⟩),
        ("counted.units", ⟨2⟩), ("counted.global_aliases", ⟨2⟩),
        ("counted.matches", ⟨2⟩), ("counted", ⟨2⟩)]] ∧
      repolled.labels = [[("classes", ⟨1⟩), ("counted", ⟨2⟩)]] :=
  ⟨outcome_polled, outcome_repolled, by decide +kernel, by decide +kernel⟩

end Census

end Regen
