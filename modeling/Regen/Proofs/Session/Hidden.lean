import Regen.Proofs.Run.Hidden
import Regen.Proofs.Session.Sources

/-!
# Disabled outputs

A session that disables some kinds of output goes through a history like one
that disables none: it succeeds where the other one does, has the same tables
for all steps but the disabled outputs, and shows the sources of the outputs
that are left, in their order.
-/

namespace Regen

open RunContext

variable {U : Type}

namespace Session

/-- All that tells the second session apart is hidden by these kinds. -/
structure HidesOutputs (kinds : List OutputKind) (s s' : Session U) : Prop where
  generators : s'.generators = s.generators
  all : s.options.disabledOutputs = []
  options : s'.options = { s.options with disabledOutputs := kinds }
  outlook : s'.outlook = s.outlook
  revision : s'.revision = s.revision
  names : s.lastRun.isSome = true →
    s.shown.map (·.1) = s.generators.map (·.name) ∧
      s'.shown.map (·.1) = s.generators.map (·.name)
  sources : ∀ i generator x x', s.generators[i]? = some generator →
    s.shown[i]? = some x → s'.shown[i]? = some x' →
      s.tables.Shows ⟨i⟩ generator.graph.outputs x.2 ∧
        s.tables.Shows ⟨i⟩
          (generator.graph.outputs.filter fun o => !kinds.contains o.2) x'.2
  tables : ∀ i generator, s.generators[i]? = some generator →
    s.tables.AlikeApartFrom s'.options s'.tables ⟨i⟩ generator.graph

theorem HidesOutputs.holding {kinds : List OutputKind} {s s' : Session U}
    (h : HidesOutputs kinds s s') (texts : List TextFile)
    (pending : List TextEdit) (failure : Option EditFailure) :
    HidesOutputs kinds (s.holding texts pending failure)
      (s'.holding texts pending failure) :=
  { h with outlook := outlook_holding h.outlook texts pending failure }

variable [BEq U] {kinds : List OutputKind} {s s' : Session U} {job : Job}

section

variable (h : HidesOutputs kinds s s')
  (w : ∀ generator ∈ s.generators, generator.graph.WellFormed)
  (aligned : s.publication.Aligned) (aligned' : s'.publication.Aligned)
  (follows : s.Follows job) {final final' : Store (Carrier U)}
  (hsolves : (s.context job).SolvesAll 0 s.generators final)
  (hsolves' : (s'.context job).SolvesAll 0 s.generators final')

include h

omit [BEq U] in
theorem HidesOutputs.context {i : Nat} {generator : Generator U}
    (hi : s.generators[i]? = some generator) :
    RunContext.Hides (s.context job) (s'.context job) ⟨i⟩ generator.graph :=
  ⟨h.all, rfl, rfl, rfl, h.tables i generator hi⟩

include w hsolves hsolves'

theorem HidesOutputs.alike {i : Nat} {generator : Generator U}
    (hi : s.generators[i]? = some generator) :
    final.AlikeApartFrom s'.options final' ⟨i⟩ generator.graph :=
  (h.context hi).alike (w generator (List.mem_of_getElem? hi))
    (hsolves.of_getElem? hi) (hsolves'.of_getElem? hi)

theorem HidesOutputs.beats :
    ((s'.context job).actionsAll final' 0 s.generators).beats =
      ((s.context job).actionsAll final 0 s.generators).beats := by
  refine beats_actionsAll_congr fun _ generator hi gs hgs => ?_
  rw [Nat.zero_add]
  exact (h.context hi).beats_actions (w generator (List.mem_of_getElem? hi))
    (h.alike w hsolves hsolves' hi) generator.name hgs

private theorem HidesOutputs.verdict_ok {shown : List (String × List Generated)}
    (hverdict : verdict (gatherAll s.options final 0 s.generators) =
      .ok shown) :
    verdict (gatherAll s'.options final' 0 s.generators) =
      .ok (gatherAll s'.options final' 0 s.generators) := by
  refine verdict_of_sublist (fun i generator hi => ?_) hverdict
  have hides : RunContext.Hides (s.context job) (s'.context job) ⟨i⟩
      generator.graph := h.context hi
  exact hides.gather_sublist (w generator (List.mem_of_getElem? hi))
    (h.alike w hsolves hsolves' hi)

include aligned aligned' follows

theorem HidesOutputs.publish :
    HidesOutputs kinds
      (s.publish job final ((s.context job).runsAll final 0 s.generators))
      (s'.publish job final'
        ((s'.context job).runsAll final' 0 s.generators)) := by
  have hshown : (s.publish job final
      ((s.context job).runsAll final 0 s.generators)).shown =
        gatherAll s.options final 0 s.generators := map_shown_runsAll _ _ _ _
  have hshown' : (s'.publish job final'
      ((s'.context job).runsAll final' 0 s.generators)).shown =
        gatherAll s'.options final' 0 s.generators := map_shown_runsAll _ _ _ _
  constructor
  case generators => exact h.generators
  case all => exact h.all
  case options => exact h.options
  case outlook => simp [Session.outlook, Session.publish, h.options]
  case revision => exact congrArg Revision.next h.revision
  case names =>
    intro _
    rw [hshown, hshown', map_fst_gatherAll, map_fst_gatherAll]
    exact ⟨rfl, rfl⟩
  case sources =>
    intro i generator x x' hi hx hx'
    rw [hshown] at hx
    rw [hshown'] at hx'
    have hw := w generator (List.mem_of_getElem? hi)
    have hi' : s'.generators[i]? = some generator := by rwa [h.generators]
    have hall := hsolves.shows w hi (resumes aligned follows hi) hx
    have hsome := hsolves'.shows w hi
      (resumes aligned' (follows.congr h.outlook) hi') hx'
    rw [show (s.context job).options = s.options from rfl,
      Graph.enabledOutputs_of_none h.all] at hall
    refine ⟨hall, ?_⟩
    have halike : final.AlikeApartFrom s'.options final' ⟨i⟩ generator.graph :=
      h.alike w hsolves hsolves' hi
    have hfound := hsome.congr fun o ho => halike.find?_output hw ho
    rwa [show (s'.context job).options = s'.options from rfl, h.options]
      at hfound
  case tables => exact fun i generator hi => h.alike w hsolves hsolves' hi

end

theorem HidesOutputs.executeJob (h : HidesOutputs kinds s s')
    (w : ∀ generator ∈ s.generators, generator.graph.WellFormed)
    (aligned : s.publication.Aligned) (aligned' : s'.publication.Aligned)
    (follows : s.Follows job) {t : Session U}
    (hrun : (s.executeJob job).outcome = .ok t) :
    (∃ t', (s'.executeJob job).outcome = .ok t' ∧ HidesOutputs kinds t t') ∧
      (s'.executeJob job).journal.beats = (s.executeJob job).journal.beats := by
  have w' : ∀ generator ∈ s'.generators, generator.graph.WellFormed := by
    rwa [h.generators]
  obtain ⟨final, shown, sources, hsolves, hverdict, rfl, hjournal⟩ :=
    executeJob_publishes w aligned follows hrun
  obtain ⟨final', hsolves', houtcome', hjournal'⟩ :=
    executeJob_eq w' aligned' (follows.congr h.outlook)
  rw [h.generators] at hsolves' houtcome' hjournal'
  have hverdict' := h.verdict_ok w hsolves hsolves' hverdict
  rw [hverdict'] at houtcome'
  obtain ⟨sources', hjournal'⟩ := hjournal' _ hverdict'
  constructor
  · exact ⟨_, houtcome',
      h.publish w aligned aligned' follows hsolves hsolves'⟩
  · rw [hjournal, hjournal', Journal.beats_append, Journal.beats_append,
      h.beats w hsolves hsolves']
    rfl

variable {generators : List (Generator U)} {options : Options}

private theorem hidesOutputs_abreast
    (w : ∀ generator ∈ generators, generator.graph.WellFormed)
    (kinds : List OutputKind) :
    Abreast (fun _ => True) generators generators
      { options with disabledOutputs := [] }
      { options with disabledOutputs := kinds } (HidesOutputs kinds) where
  outlook h := h.outlook
  holding h := h.holding
  run := by
    intro s s' t job reached reached' h follows hrun
    obtain ⟨-, -, aligned'⟩ := reached'.generators_eq w
    obtain ⟨rfl, -, aligned⟩ := reached.generators_eq w
    obtain ⟨hok, hbeats⟩ := h.executeJob w aligned aligned' follows hrun
    exact ⟨hok, fun c _ => (Cancellation.cut_eq_none_congr hbeats).2⟩

/-- What goes through in a session that disables nothing goes through under
any disabled kinds, with less to show. -/
theorem disabled_outputs_hidden (built : ∀ g ∈ generators, g.Built)
    (options : Options) (kinds : List OutputKind) {operations : List Operation}
    (hok : succeeds
      { generators, options := { options with disabledOutputs := [] } }
      operations = true) :
    succeeds
        { generators, options := { options with disabledOutputs := kinds } }
        operations = true ∧
      ∀ before, before <+: operations →
        HidesOutputs kinds
          (replay
            { generators, options := { options with disabledOutputs := [] } }
            before)
          (replay
            { generators,
              options := { options with disabledOutputs := kinds } }
            before) := by
  have w : ∀ generator ∈ generators, generator.graph.WellFormed :=
    fun g hg => (built g hg).wellFormed
  have hstart : HidesOutputs kinds
      { generators, options := { options with disabledOutputs := [] } }
      { generators, options := { options with disabledOutputs := kinds } } := {
    generators := rfl
    all := rfl
    options := rfl
    outlook := rfl
    revision := rfl
    names := nofun
    sources := nofun
    tables := fun _ _ _ _ _ _ _ _ => rfl }
  exact (hidesOutputs_abreast w kinds).replay .start .start hstart
    (fun _ _ => trivial) hok

end Session

/-! ## Listed files, and texts that are hidden -/

namespace Lister

open Session

def history : List Operation :=
  [.run files (.atCall 100), .addTexts [note],
    .absorbEdits [.add ⟨"y.txt", "z"⟩] files .never]

theorem texts_hidden :
    (replay blank history).shown =
        [("lister", [⟨"a.cs", ""⟩, ⟨"b.cs", ""⟩, ⟨"x.txt", "hello"⟩,
          ⟨"y.txt", "z"⟩])] ∧
      (replay sourcesOnly history).shown =
        [("lister", [⟨"a.cs", ""⟩, ⟨"b.cs", ""⟩])] ∧
      ∀ before, before <+: history →
        HidesOutputs [.implementation] (replay blank before)
          (replay sourcesOnly before) := by
  have hok : succeeds { generators := [generator], options := {} } history =
      true := by
    decide +kernel
  exact ⟨by decide +kernel, by decide +kernel,
    (disabled_outputs_hidden all_built {} [.implementation] hok).2⟩

end Lister

end Regen
