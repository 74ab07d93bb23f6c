import Regen.Proofs.Session.Afresh

/-!
# Inputs in another order

A run over the files of the last run in another order takes all of them for
unchanged.  It therefore publishes the sources of the last run, in their old
order, whether or not a session without a past would put them in that order.
-/

namespace Regen

open RunContext

variable {U : Type} [BEq U]

private theorem RunContext.Solves.gather_of_perm {r : RunContext U} {g : GraphId}
    {graph : Graph U} {tables : Store (Carrier U)} (w : graph.WellFormed)
    (h : r.Solves g graph tables) {trees : List Syntax.Tree}
    {texts : List TextFile}
    (haligned : r.previous.Aligned r.options trees texts g graph)
    (hmode : r.mode = .edits → trees = r.trees)
    (hids : (trees.map (·.id)).Nodup) (htrees : r.trees.Perm trees)
    (hpaths : (texts.map (·.path)).Nodup) (htexts : r.texts.Perm texts) :
    gather r.options g graph tables = gather r.options g graph r.previous := by
  refine gather_eq_of_reading w fun hs hstep hout => ?_
  have hfind := (h.outputs_of_perm w haligned hmode hids htrees hpaths htexts hs
    hout).2 (by simp [hstep]) (by simp [hstep])
  exact (congrArg Table.values (Store.read_settled hfind _)).trans
    (Table.values_settled _)

namespace Session

variable {s : Session U} {generators : List (Generator U)} {options : Options}
  {allowed : Session U → Operation → Prop}

theorem gatherAll_of_perm
    (w : ∀ generator ∈ s.generators, generator.graph.WellFormed)
    (aligned : s.publication.Aligned) {last : LastRun}
    (hlast : s.lastRun = some last)
    (hids : (last.compilation.trees.map (·.id)).Nodup)
    (hpaths : (last.texts.map (·.path)).Nodup) {job : Job}
    (hmode : job.mode = .edits →
      last.compilation.trees = job.compilation.trees)
    (htrees : job.compilation.trees.Perm last.compilation.trees)
    (htexts : job.texts.Perm last.texts) {final : Store (Carrier U)}
    (hsolves : (s.context job).SolvesAll 0 s.generators final) :
    gatherAll s.options final 0 s.generators =
      gatherAll s.options s.tables 0 s.generators := by
  refine gatherAll_congr fun i generator hi => ?_
  rw [Nat.zero_add]
  exact (hsolves.of_getElem? hi).gather_of_perm
    (w generator (List.mem_of_getElem? hi)) (aligned.tables last hlast i _ hi)
    hmode hids htrees hpaths htexts

/-- The files of the last run in another order bring back its sources. -/
theorem shown_of_perm (built : ∀ generator ∈ generators, generator.Built)
    (h : Reached allowed generators options s) {last : LastRun}
    (hlast : s.lastRun = some last)
    (hids : (last.compilation.trees.map (·.id)).Nodup)
    (hpaths : (last.texts.map (·.path)).Nodup) {o : Operation} {job : Job}
    (hjob : s.job? o = some job)
    (htrees : job.compilation.trees.Perm last.compilation.trees)
    (htexts : job.texts.Perm last.texts) (huncancelled : o.cancellation = .never) :
    (s.perform o).outcome.map shown = .ok s.shown := by
  obtain ⟨rfl, rfl, aligned⟩ := h.generators_eq fun g hg => (built g hg).wellFormed
  have w : ∀ generator ∈ s.generators, generator.graph.WellFormed :=
    fun g hg => (built g hg).wellFormed
  have follows := follows_of_job? hjob
  obtain ⟨final, hsolves, hends⟩ := executeJob_ends w aligned follows
  have hmode : job.mode = .edits →
      last.compilation.trees = job.compilation.trees := by
    intro hmode
    obtain ⟨last', hlast', hsame⟩ := follows hmode
    obtain rfl : last = last' := Option.some.inj (hlast.symm.trans hlast')
    rw [hsame]
  have hgather := gatherAll_of_perm w aligned hlast hids hpaths hmode htrees
    htexts hsolves
  rcases outcome_perform hjob with ⟨hcancel, -⟩ | hout
  · exact absurd huncancelled hcancel
  · rw [hout, hends.shown_eq, hgather]
    exact verdict_eq aligned hlast

/--
Over the files of the last run in another order a run agrees with a session
without a past exactly where the latter shows the sources that were shown last.
-/
theorem reordered_eq_afresh_iff
    (built : ∀ generator ∈ generators, generator.Built)
    (h : Reached allowed generators options s) {last : LastRun}
    (hlast : s.lastRun = some last)
    (hids : (last.compilation.trees.map (·.id)).Nodup)
    (hpaths : (last.texts.map (·.path)).Nodup) {o : Operation} {job : Job}
    (hjob : s.job? o = some job)
    (htrees : job.compilation.trees.Perm last.compilation.trees)
    (htexts : job.texts.Perm last.texts) (huncancelled : o.cancellation = .never) :
    (s.perform o).outcome.map shown =
        ((afresh generators options job.texts).run
          job.compilation).outcome.map shown ↔
      ((afresh generators options job.texts).run
        job.compilation).outcome.map shown = .ok s.shown := by
  rw [shown_of_perm built h hlast hids hpaths hjob htrees htexts huncancelled]
  exact eq_comm

end Session

namespace Lister

open Session

def reversed : Compilation :=
  ⟨files.trees.reverse⟩

theorem reversed_ne_afresh :
    Reached anyOperation [generator] {} ran ∧
      reversed.trees.Perm files.trees ∧
      (ran.perform (.run reversed .never)).outcome.map shown ≠
        ((afresh [generator] {} []).run reversed).outcome.map shown := by
  refine ⟨ran_reached, List.reverse_perm _, ?_⟩
  decide +kernel

theorem reversed_eq_afresh_iff :
    (ran.perform (.run reversed .never)).outcome.map shown =
        ((afresh [generator] {} []).run reversed).outcome.map shown ↔
      ((afresh [generator] {} []).run reversed).outcome.map shown =
        .ok ran.shown := by
  obtain ⟨last, hlast, hfiles, htexts⟩ := lastRun_ran
  have happly : (TextEdit.applyFitting ran.texts ran.pending).1 = [] := by
    decide +kernel
  have hjob : ran.job? (.run reversed .never) = some ⟨.full, reversed, []⟩ := by
    rw [job?, happly]
  have hids : (last.compilation.trees.map (·.id)).Nodup := by
    rw [hfiles]
    exact nodup_files
  have hpaths : (last.texts.map (·.path)).Nodup := by
    rw [htexts]
    exact List.nodup_nil
  have htrees : reversed.trees.Perm last.compilation.trees := by
    rw [hfiles]
    exact List.reverse_perm _
  have hperm : List.Perm [] last.texts := by
    rw [htexts]
  have hiff := reordered_eq_afresh_iff all_built ran_reached hlast hids hpaths
    hjob htrees hperm rfl
  dsimp only at hiff
  exact hiff

end Lister

end Regen
