import Regen.Proofs.Run.Sources
import Regen.Proofs.Session.Abreast
import Regen.Proofs.Session.Absorb
import Regen.Proofs.Session.Tables

/-!
# Hints in a session

A run that is not cancelled evaluates all of its steps, whatever the hints are.
It succeeds with the sources in the tables of the outputs, unless a generator
repeats a hint.  There is no other way for it to fail.
-/

namespace Regen

open RunContext

variable {U : Type}

namespace Session

/-- How a run ends if its steps leave these tables. -/
structure Concludes (generators : List (Generator U)) (options : Options)
    (tables : Store (Carrier U)) (shown : List (String × List Generated))
    (outcome : Except RunError (Session U)) : Prop where
  names : shown.map (·.1) = generators.map (·.name)
  sources : ∀ i generator x, generators[i]? = some generator →
    shown[i]? = some x →
      tables.Shows ⟨i⟩ (generator.graph.enabledOutputs options) x.2
  succeeds : (∃ s', outcome = .ok s') ↔ ∀ x ∈ shown, DistinctHints x.2
  published : ∀ s', outcome = .ok s' →
    s'.shown = shown ∧ ∀ key, s'.tables.find? key = tables.find? key
  refused : ∀ e, outcome = .error e → Refuses shown e

theorem Concludes.congr {generators : List (Generator U)} {options : Options}
    {tables tables' : Store (Carrier U)}
    {shown : List (String × List Generated)}
    {outcome : Except RunError (Session U)}
    (h : Concludes generators options tables shown outcome)
    (hsame : ∀ key, tables'.find? key = tables.find? key) :
    Concludes generators options tables' shown outcome where
  names := h.names
  sources i generator x hi hx :=
    (h.sources i generator x hi hx).congr fun _ _ => hsame _
  succeeds := h.succeeds
  published s' hs' := by
    obtain ⟨hshown, htables⟩ := h.published s' hs'
    exact ⟨hshown, fun key => by rw [htables, hsame]⟩
  refused := h.refused

end Session

namespace RunContext

theorem map_fst_gatherAll (options : Options) (tables : Store (Carrier U))
    (index : Nat) (generators : List (Generator U)) :
    (gatherAll options tables index generators).map (·.1) =
      generators.map (·.name) := by
  induction generators generalizing index with
  | nil => rfl
  | cons generator generators ih => simp [gatherAll, ih]

theorem SolvesAll.shows [BEq U] {r : RunContext U}
    {generators : List (Generator U)} {tables : Store (Carrier U)}
    (h : r.SolvesAll 0 generators tables)
    (w : ∀ generator ∈ generators, generator.graph.WellFormed)
    {i : Nat} {generator : Generator U} (hi : generators[i]? = some generator)
    (resumes : r.Resumes ⟨i⟩ generator.graph)
    {x : String × List Generated}
    (hx : (gatherAll r.options tables 0 generators)[i]? = some x) :
    tables.Shows ⟨i⟩ (generator.graph.enabledOutputs r.options) x.2 := by
  rw [getElem?_gatherAll, hi, Nat.zero_add, Option.map_some,
    Option.some.injEq] at hx
  subst hx
  exact (h.of_getElem? hi).shows (w generator (List.mem_of_getElem? hi)) resumes

end RunContext

namespace Session

variable [BEq U] {s : Session U} {job : Job}
  {outcome : Except RunError (Session U)}

private theorem Ends.concludes
    (w : ∀ generator ∈ s.generators, generator.graph.WellFormed)
    (aligned : s.publication.Aligned) (follows : s.Follows job)
    {final : Store (Carrier U)}
    (hsolves : (s.context job).SolvesAll 0 s.generators final)
    (h : s.Ends job final outcome) :
    Concludes s.generators s.options final
      (gatherAll s.options final 0 s.generators) outcome where
  names := map_fst_gatherAll _ _ _ _
  sources i generator x hi hx :=
    hsolves.shows w hi (resumes aligned follows hi) hx
  succeeds := by
    cases h with
    | refused h =>
        refine iff_of_false nofun fun hdistinct => ?_
        rw [verdict_eq_ok_iff.2 ⟨rfl, hdistinct⟩] at h
        contradiction
    | published h => exact iff_of_true ⟨_, rfl⟩ (verdict_eq_ok_iff.1 h).2
  published := by
    rintro s' rfl
    cases h with
    | published h => exact ⟨eq_of_verdict h, fun _ => rfl⟩
  refused := by
    rintro e rfl
    cases h with
    | refused h => exact verdict_eq_error_iff.1 h

private theorem executeJob_concludes
    (w : ∀ generator ∈ s.generators, generator.graph.WellFormed)
    (aligned : s.publication.Aligned) (follows : s.Follows job) :
    ∃ tables shown,
      ((s.context job).evaluateAll 0 s.generators {}).outcome = .ok tables ∧
      Concludes s.generators s.options tables shown
        (s.executeJob job).outcome := by
  obtain ⟨tables, hsolves, -, hevaluated⟩ := evaluateAll_eq w
    (context_fits aligned follows) {} .empty fun _ _ => rfl
  obtain ⟨final, hfinal, hends⟩ := executeJob_ends w aligned follows
  have hconcludes := hends.concludes w aligned follows hfinal
  have hsame := SolvesAll.unique w (fun _ _ hi => hsolves.of_getElem? hi) hfinal
    fun key hle => hsolves.beyond key (by simpa using hle)
  exact ⟨tables, _, hevaluated, hconcludes.congr hsame⟩

variable {generators : List (Generator U)} {options : Options}

private theorem Reached.error_cases
    (w : ∀ generator ∈ generators, generator.graph.WellFormed)
    (h : Reached anyOperation generators options s) {o : Operation}
    {e : RunError} (herror : (s.perform o).outcome = .error e) :
    ∃ job, s.job? o = some job ∧
      (o.cancellation ≠ .never ∧ e = .cancelled ∨
        ∃ generator ∈ generators, ∃ hint,
          e = .duplicateHint generator.name hint) := by
  obtain ⟨rfl, rfl, aligned⟩ := h.generators_eq w
  cases hjob : s.job? o with
  | none =>
      obtain ⟨_, _, _, hok, -⟩ := perform_of_job?_none rfl hjob
      rw [hok] at herror
      contradiction
  | some job =>
      refine ⟨job, rfl, ?_⟩
      rcases outcome_perform hjob with ⟨hcancel, hcancelled⟩ | hout
      · exact .inl ⟨hcancel, Except.error.inj (herror.symm.trans hcancelled)⟩
      · obtain ⟨tables, shown, -, hconcludes⟩ :=
          executeJob_concludes w aligned (follows_of_job? hjob)
        obtain ⟨before, name, sources, after, hint, hshown, -, -, rfl⟩ :=
          hconcludes.refused e (hout.symm.trans herror)
        have hname : name ∈ s.generators.map (·.name) := by
          simp [← hconcludes.names, hshown]
        obtain ⟨generator, hgenerator, rfl⟩ := List.mem_map.1 hname
        exact .inr ⟨generator, hgenerator, hint, rfl⟩

/--
Sources that are published repeat no hint.  A run that is not cancelled goes by
the sources in the tables that its steps leave, and nothing else fails.
-/
theorem perform_concludes (built : ∀ g ∈ generators, g.Built)
    (h : Reached anyOperation generators options s) :
    (∀ result, s.result? = some result →
        ∀ run ∈ result.generators, DistinctHints run.sources) ∧
      (∀ o job, s.job? o = some job →
        o.cancellation = .never ∨
          (s.perform o).outcome ≠ .error .cancelled →
        ∃ tables shown,
          ((s.context job).evaluateAll 0 generators {}).outcome = .ok tables ∧
          Concludes generators options tables shown (s.perform o).outcome) ∧
      ∀ o e, (s.perform o).outcome = .error e → ∃ job, s.job? o = some job ∧
        (o.cancellation ≠ .never ∧ e = .cancelled ∨
          ∃ generator ∈ generators, ∃ hint,
            e = .duplicateHint generator.name hint) := by
  have w : ∀ generator ∈ generators, generator.graph.WellFormed :=
    fun g hg => (built g hg).wellFormed
  have herrors := fun o e => h.error_cases w (o := o) (e := e)
  obtain ⟨rfl, rfl, aligned⟩ := h.generators_eq w
  refine ⟨fun result hresult run hrun => ?_, fun o job hjob huncancelled => ?_,
    herrors⟩
  · obtain ⟨last, hlast, rfl⟩ := Option.map_eq_some_iff.1 hresult
    have hverdict := aligned.shown last hlast
    rw [← eq_of_verdict hverdict] at hverdict
    exact (verdict_eq_ok_iff.1 hverdict).2 _ (List.mem_map_of_mem hrun)
  · rcases outcome_perform hjob with ⟨hcancel, hcancelled⟩ | hout
    · exact (huncancelled.elim hcancel (· hcancelled)).elim
    · rw [hout]
      exact executeJob_concludes w aligned (follows_of_job? hjob)

end Session

/-! ## Two files of one path -/

namespace Lister

open Session Syntax

def twins : Compilation :=
  ⟨[⟨⟨1⟩, "a.cs", .unit [] []⟩, ⟨⟨2⟩, "b.cs", .unit [] []⟩,
    ⟨⟨3⟩, "b.cs", .unit [] []⟩, ⟨⟨4⟩, "a.cs", .unit [] []⟩]⟩

def sourcesOnly : Session Unit where
  generators := [generator]
  options := { disabledOutputs := [.implementation] }

/-- It has a text with the path of a tree, which does not count. -/
def annotated : Session Unit :=
  { sourcesOnly with texts := [⟨"a.cs", "hello"⟩] }

theorem twins_refused :
    ∃ s, (annotated.perform (.run files .never)).outcome = .ok s ∧
      s.shown = [("lister", [⟨"a.cs", ""⟩, ⟨"b.cs", ""⟩])] ∧
      (s.perform (.run twins .never)).outcome.map (fun _ => ()) =
        .error (.duplicateHint "lister" "b.cs") ∧
      ∃ tables shown, Concludes [generator]
        { disabledOutputs := [.implementation] } tables shown
        (s.perform (.run twins .never)).outcome := by
  have hok := ok_of_isSome annotated
    (show (annotated.perform (.run files .never)).outcome.toOption.isSome =
      true by decide +kernel)
  have reached : Reached anyOperation [generator] sourcesOnly.options
      annotated :=
    .step (o := .addTexts [⟨"a.cs", "hello"⟩]) .start trivial rfl
  obtain ⟨tables, shown, -, hconcludes⟩ :=
    (perform_concludes all_built (reached.step trivial hok)).2.1
      (.run twins .never) _ rfl (.inl rfl)
  exact ⟨_, hok, by decide +kernel, by decide +kernel, tables, shown,
    hconcludes⟩

end Lister

end Regen
