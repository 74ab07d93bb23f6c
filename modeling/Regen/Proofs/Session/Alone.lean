import Regen.Proofs.Run.Lasting
import Regen.Proofs.Run.Moved
import Regen.Proofs.Session.Abreast
import Regen.Proofs.Session.Rerun

/-!
# Generators on their own

All generators of a session share one store and run one after the other, but
none of them takes notice of the others: in a session of its own each would go
through the same operations with the same results.  Such a session does less in
every run, so it is not cancelled where the session of all is not.
-/

namespace Regen

open Syntax

variable {U : Type}

def Store.SameUnder (tables tables' : Store (Carrier U)) (g g' : GraphId) :
    Prop :=
  ∀ id part, tables.find? ⟨g, id, part⟩ = tables'.find? ⟨g', id, part⟩

namespace RunContext

structure Twin (r r' : RunContext U) (g g' : GraphId) : Prop where
  options : r.options = r'.options
  mode : r.mode = r'.mode
  trees : r.trees = r'.trees
  texts : r.texts = r'.texts
  previous : r.previous.SameUnder r'.previous g g'

variable {r r' : RunContext U} {g g' : GraphId} {graph : Graph U}
  {tables tables' : Store (Carrier U)}

theorem Twin.agree (twin : Twin r r' g g') {s : GraphStep U}
    (inputs : ∀ x ∈ s.step.reads, tables.find? (.output g x.1) =
      tables'.find? (.output g' x.1)) : Agree r r' g g' s tables tables' where
  options := twin.options
  keeps := by
    rw [Keeps, Keeps, twin.mode, Store.contains, Store.contains]
    exact Iff.of_eq (congrArg (fun t => _ ∧ Option.isSome t = true)
      (twin.previous s.id .output))
  view :=
    ⟨rfl, twin.previous s.id, inputs, fun x _ => twin.previous x.1 .output,
      fun _ => twin.trees, fun _ => twin.texts⟩

private theorem gather_of_sameUnder (options : Options)
    (h : tables.SameUnder tables' g g') :
    gather options g graph tables = gather options g' graph tables' := by
  unfold gather
  refine congrArg (List.flatMap · _) (funext fun (step, _) => ?_)
  have hfind := h step .output
  simp only [Store.read, Store.at?, TableKey.output, hfind]

variable [BEq U]

private theorem Twin.sameUnder (twin : Twin r r' g g') (w : graph.WellFormed)
    (h : r.Solves g graph tables) (h' : r'.Solves g' graph tables') :
    tables.SameUnder tables' g g' := by
  rintro ⟨i⟩
  induction i using Nat.strongRecOn with
  | _ i ih =>
      intro part
      cases hs : graph.step? ⟨i⟩ with
      | none => rw [h.beyond _ rfl hs, h'.beyond _ rfl hs]
      | some s =>
          have agree : Agree r r' g g' s tables tables' :=
            twin.agree fun x hx => ih x.1.index (w.earlier_of_reads hs hx) .output
          rw [h.step hs, h'.step hs, agree.published]

omit [BEq U] in
private theorem verdict_of_mem {shown shown' : List (String × List Generated)}
    (h : verdict shown = .ok shown') {x : String × List Generated}
    (hx : x ∈ shown) : verdict [x] = .ok [x] := by
  have hnone : repeatedHint? x = none := by
    unfold verdict at h
    split at h
    · contradiction
    · next hfound => exact List.findSome?_eq_none_iff.1 hfound x hx
  rw [verdict, List.findSome?_cons, hnone]
  rfl

omit [BEq U] in
private theorem Twin.agree_of_sameUnder (twin : Twin r r' g g')
    (h : tables.SameUnder tables' g g') (s : GraphStep U) :
    Agree r r' g g' s tables tables' :=
  twin.agree fun x _ => h x.1 .output

private theorem SolvesAll.find?_alone {generator : Generator U}
    (h' : r'.SolvesAll 0 [generator] tables')
    (h : tables.SameUnder tables' g ⟨0⟩) (key : TableKey) :
    tables'.find? key =
      if key.graph = ⟨0⟩ then tables.find? ⟨g, key.step, key.part⟩
      else none := by
  split
  · next hkey =>
    obtain ⟨g', id, part⟩ := key
    obtain rfl : g' = ⟨0⟩ := hkey
    exact (h id part).symm
  · next hkey =>
    refine h'.beyond key (Nat.pos_of_ne_zero fun hzero => hkey ?_)
    exact congrArg GraphId.mk hzero

section

variable {i : Nat} {generators : List (Generator U)} {generator : Generator U}
  (twin : Twin r r' ⟨i⟩ ⟨0⟩) (h : tables.SameUnder tables' ⟨i⟩ ⟨0⟩)
  (hi : generators[i]? = some generator)

include twin h hi

theorem Twin.runsAll : ∃ run,
    (r.runsAll tables 0 generators)[i]? = some run ∧
      r'.runsAll tables' 0 [generator] = [run] := by
  refine ⟨_, by rw [getElem?_runsAll, hi]; rfl, ?_⟩
  have hreported := fun s => (twin.agree_of_sameUnder h s).reported
  have hgather : gather r.options ⟨i⟩ generator.graph tables =
      gather r.options ⟨0⟩ generator.graph tables' :=
    gather_of_sameUnder r.options h
  simp only [RunContext.runsAll, Nat.zero_add, ← twin.options, hgather,
    hreported]

theorem Twin.verdict {shown : List (String × List Generated)}
    (hverdict : verdict (gatherAll r.options tables 0 generators) =
      .ok shown) :
    ∃ shown', RunContext.verdict (gatherAll r'.options tables' 0 [generator]) =
      .ok shown' := by
  obtain ⟨run, hrun, halone⟩ := twin.runsAll h hi
  rw [← map_shown_runsAll] at hverdict ⊢
  rw [halone]
  have hmem := List.mem_map_of_mem (f := GeneratorRun.shown)
    (List.mem_of_getElem? hrun)
  exact ⟨[run.shown], verdict_of_mem hverdict hmem⟩

private theorem Twin.beats_actionsAll :
    (r'.actionsAll tables' 0 [generator]).beats.Sublist
      (r.actionsAll tables 0 generators).beats := by
  have hsub := (r.isInfix_actionsAll tables 0 hi).sublist.filterMap Action.beat?
  rw [Nat.zero_add] at hsub
  have hmoved : r'.actionsAll tables' 0 [generator] =
      Journal.moved ⟨0⟩ (generator.graph.steps.flatMap
        (r.actions ⟨i⟩ generator.name · tables)) := by
    rw [actionsAll, actionsAll, List.append_nil, Journal.moved_flatMap]
    exact List.flatMap_congr fun s _ =>
      (twin.agree_of_sameUnder h s).actions generator.name
  rw [hmoved, Journal.beats_moved]
  exact hsub

end

end RunContext

namespace Session

open RunContext

/-- The second session is what the first one is to its `i`-th generator. -/
structure Mirrors (i : Nat) (s s' : Session U) : Prop where
  generator : ∃ generator, s.generators[i]? = some generator ∧
    s'.generators = [generator]
  options : s'.options = s.options
  texts : s'.texts = s.texts
  pending : s'.pending = s.pending
  failure : s'.failure = s.failure
  revision : s'.revision = s.revision
  unrun : s.lastRun = none → s'.lastRun = none
  ran : ∀ last, s.lastRun = some last →
    ∃ run, last.result.generators[i]? = some run ∧
      s'.lastRun =
        some { last with result := { last.result with generators := [run] } }
  tables : ∀ key, s'.tables.find? key =
    if key.graph = ⟨0⟩ then s.tables.find? ⟨⟨i⟩, key.step, key.part⟩ else none

namespace Mirrors

variable {i : Nat} {s s' : Session U} (h : Mirrors i s s')

include h

private theorem sameUnder : s.tables.SameUnder s'.tables ⟨i⟩ ⟨0⟩ := by
  intro id part
  rw [h.tables, if_pos rfl]

theorem outlook : s'.outlook = s.outlook := by
  have hran : s'.lastRun.map (fun last => (last.compilation, last.texts)) =
      s.lastRun.map fun last => (last.compilation, last.texts) := by
    cases hlast : s.lastRun with
    | none => rw [h.unrun hlast]
    | some last =>
        obtain ⟨run, -, hlast'⟩ := h.ran last hlast
        rw [hlast']
        rfl
  simp only [Session.outlook, h.texts, h.pending, h.failure, h.options, hran]

theorem holding (texts : List TextFile) (pending : List TextEdit)
    (failure : Option EditFailure) :
    Mirrors i (s.holding texts pending failure)
      (s'.holding texts pending failure) :=
  { h with texts := rfl, pending := rfl, failure := rfl }

theorem publish {job : Job} {tables tables' : Store (Carrier U)}
    {runs : List GeneratorRun} {run : GeneratorRun} (hrun : runs[i]? = some run)
    (htables : ∀ key, tables'.find? key =
      if key.graph = ⟨0⟩ then tables.find? ⟨⟨i⟩, key.step, key.part⟩
      else none) :
    Mirrors i (s.publish job tables runs) (s'.publish job tables' [run]) where
  generator := h.generator
  options := h.options
  texts := rfl
  pending := rfl
  failure := rfl
  revision := congrArg Revision.next h.revision
  unrun := nofun
  ran := by
    intro last hlast
    obtain rfl := Option.some.inj hlast
    refine ⟨run, hrun, ?_⟩
    rw [Session.publish, h.revision]
  tables := htables

end Mirrors

variable [BEq U]

theorem Mirrors.executeJob {i : Nat} {s s' : Session U} (h : Mirrors i s s')
    (w : ∀ generator ∈ s.generators, generator.graph.WellFormed)
    (aligned : s.publication.Aligned) (aligned' : s'.publication.Aligned)
    {job : Job} (follows : s.Follows job) {t : Session U}
    (ht : (s.executeJob job).outcome = .ok t) :
    (∃ t', (s'.executeJob job).outcome = .ok t' ∧ Mirrors i t t') ∧
      (s'.executeJob job).journal.beats.Sublist
        (s.executeJob job).journal.beats := by
  obtain ⟨generator, hi, hgenerators⟩ := h.generator
  have hw := w generator (List.mem_of_getElem? hi)
  have w' : ∀ generator ∈ s'.generators, generator.graph.WellFormed := by
    rw [hgenerators]
    exact List.forall_mem_singleton.2 hw
  obtain ⟨final, shown, sources, hsolves, hverdict, rfl, hjournal⟩ :=
    executeJob_publishes w aligned follows ht
  obtain ⟨final', hsolves', hrun', hjournal'⟩ :=
    executeJob_eq w' aligned' (follows.congr h.outlook)
  rw [hgenerators] at hsolves' hrun' hjournal'
  have twin : Twin (s.context job) (s'.context job) ⟨i⟩ ⟨0⟩ :=
    ⟨h.options.symm, rfl, rfl, rfl, h.sameUnder⟩
  have hsame := twin.sameUnder hw (hsolves.of_getElem? hi)
    (hsolves'.of_getElem? (i := 0) rfl)
  obtain ⟨shown', hverdict'⟩ : ∃ shown',
      verdict (gatherAll s'.options final' 0 [generator]) = .ok shown' :=
    twin.verdict hsame hi hverdict
  obtain ⟨run, hat, halone⟩ := twin.runsAll hsame hi
  rw [hverdict', halone] at hrun'
  refine ⟨⟨_, hrun', h.publish hat (hsolves'.find?_alone hsame)⟩, ?_⟩
  obtain ⟨sources', hjournal'⟩ := hjournal' _ hverdict'
  rw [hjournal, hjournal', Journal.beats_append, Journal.beats_append]
  exact (twin.beats_actionsAll hsame hi).append (List.Sublist.refl _)

private theorem mirrors_abreast {generators : List (Generator U)} {options : Options}
    (w : ∀ generator ∈ generators, generator.graph.WellFormed) {i : Nat}
    {generator : Generator U} (hi : generators[i]? = some generator) :
    Abreast Cancellation.Lasting generators [generator] options options
      (Mirrors i) where
  outlook h := h.outlook
  holding h := h.holding
  run := by
    intro s s' t job reached reached' h follows hrun
    have hw := w generator (List.mem_of_getElem? hi)
    obtain ⟨-, -, aligned'⟩ :=
      reached'.generators_eq (List.forall_mem_singleton.2 hw)
    obtain ⟨rfl, -, aligned⟩ := reached.generators_eq w
    obtain ⟨hok, hbeats⟩ := h.executeJob w aligned aligned' follows hrun
    exact ⟨hok, fun c lasting => lasting.cut_eq_none hbeats⟩

theorem Mirrors.replay {generators : List (Generator U)} {options : Options}
    (w : ∀ generator ∈ generators, generator.graph.WellFormed) {i : Nat}
    {generator : Generator U} (hi : generators[i]? = some generator)
    {s s' : Session U} (reached : Reached anyOperation generators options s)
    (reached' : Reached anyOperation [generator] options s')
    (h : Mirrors i s s') {operations : List Operation}
    (lasting : ∀ o ∈ operations, o.cancellation.Lasting)
    (hok : s.succeeds operations = true) :
    s'.succeeds operations = true ∧ ∀ before, before <+: operations →
      Mirrors i (s.replay before) (s'.replay before) :=
  (mirrors_abreast w hi).replay reached reached' h lasting hok

/-- Whatever a generator does in company it does alone. -/
theorem alone_mirrors {generators : List (Generator U)} {options : Options}
    (built : ∀ g ∈ generators, g.Built) {i : Nat} {generator : Generator U}
    (hi : generators[i]? = some generator) {operations : List Operation}
    (lasting : ∀ o ∈ operations, o.cancellation.Lasting)
    (hok : succeeds { generators, options } operations = true) :
    succeeds { generators := [generator], options } operations = true ∧
      ∀ before, before <+: operations →
        Mirrors i (replay { generators, options } before)
          (replay { generators := [generator], options } before) := by
  have w : ∀ generator ∈ generators, generator.graph.WellFormed :=
    fun g hg => (built g hg).wellFormed
  have hstart : Mirrors i { generators, options }
      { generators := [generator], options } := {
    generator := ⟨generator, hi, rfl⟩
    options := rfl
    texts := rfl
    pending := rfl
    failure := rfl
    revision := rfl
    unrun := fun _ => rfl
    ran := nofun
    tables := fun key => by split <;> rfl }
  exact hstart.replay w hi .start .start lasting hok

end Session

/-! ## A generator in company, and alone -/

namespace Census

open Session

def company : List (Generator Unit) :=
  [Lister.generator, generator, generator]

private theorem company_built : ∀ g ∈ company, g.Built :=
  List.forall_mem_cons.2 ⟨Lister.all_built _ (List.mem_singleton_self _),
    List.forall_mem_cons.2 ⟨built _ (List.mem_singleton_self _), built⟩⟩

def errands : List Operation :=
  [.run apart (.atCall 100), .absorbEdits [.add Lister.note] apart .never,
    .run Lister.files .never]

private theorem errands_lasting : ∀ o ∈ errands, o.cancellation.Lasting := by
  rintro _ (_ | ⟨_, _ | ⟨_, _ | ⟨_, ⟨⟩⟩⟩⟩)
  · exact Cancellation.lasting_atCall 100
  · exact Cancellation.lasting_never
  · exact Cancellation.lasting_never

theorem errands_alone :
    succeeds { generators := company, options := { trackSteps := true } }
        errands = true ∧
      succeeds blank errands = true ∧ ∀ before, before <+: errands →
        Mirrors 2
          (replay { generators := company, options := { trackSteps := true } }
            before)
          (replay blank before) := by
  have hok : succeeds
      { generators := company, options := { trackSteps := true } } errands =
        true := by
    decide +kernel
  exact ⟨hok, alone_mirrors company_built (i := 2) rfl errands_lasting hok⟩

end Census

end Regen
