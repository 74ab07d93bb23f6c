import Regen.Proofs.Run.Repeated
import Regen.Proofs.Session.Rerun

/-!
# Running twice over repeated identifiers

Trees that share an identifier may change what a second run over the same files
shows: it takes what was found in the last of them for what is in the first.
Where a walk makes the same of both, the second run succeeds and shows what the
first one has shown.
-/

namespace Regen

open RunContext

variable {U : Type}

/-- No walk tells the first tree of an identifier from the last one. -/
def Generator.EndsAgree (trees : List Syntax.Tree) (g : Generator U) : Prop :=
  ∀ gs ∈ g.graph.steps, gs.step.EndsAgree trees

namespace Session

variable [BEq U] {generators : List (Generator U)} {options : Options}
  {s s' : Session U}

private theorem plain_of_first (w : ∀ g ∈ generators, g.graph.WellFormed)
    (h : Reached anyOperation generators options s)
    (hfirst : s.lastRun = none) {o : Operation} {job : Job}
    (hjob : s.job? o = some job) (hok : (s.perform o).outcome = .ok s')
    {i : Nat} {generator : Generator U}
    (hi : generators[i]? = some generator) :
    s'.tables.Plain options job.compilation.trees job.texts ⟨i⟩
      generator.graph := by
  have hsolves := (h.solvesAll w hjob hok).of_getElem? hi
  obtain ⟨-, rfl, aligned⟩ := h.generators_eq w
  exact hsolves.plain (w generator (List.mem_of_getElem? hi))
    fun key _ => aligned.unpublished hfirst key

/--
A session that has run for the first time, whichever files share an identifier,
runs over them once more with the same sources, provided that the first tree
and the last tree of each identifier are alike to the walks.
-/
theorem rerun_shows (built : ∀ g ∈ generators, g.Built)
    (h : Reached anyOperation generators options s)
    (hfirst : s.lastRun = none) {o : Operation} {job : Job}
    (hjob : s.job? o = some job) (hok : (s.perform o).outcome = .ok s')
    (agree : ∀ g ∈ generators, g.EndsAgree job.compilation.trees) :
    (s'.run job.compilation).outcome.map shown = .ok s'.shown := by
  have w : ∀ generator ∈ generators, generator.graph.WellFormed :=
    fun g hg => (built g hg).wellFormed
  have plain := @plain_of_first _ _ _ _ _ _ w h hfirst _ _ hjob hok
  obtain ⟨rfl, rfl, aligned⟩ := Reached.generators_eq w (h.step trivial hok)
  obtain ⟨last, hlast, hcompilation, hlasttexts, htexts, hpending⟩ :=
    exists_last hjob hok
  rw [← hcompilation] at agree plain ⊢
  rw [← hlasttexts] at plain
  obtain ⟨final, hsolves, hends⟩ :=
    @executeJob_ends U _ s' last.again w aligned nofun
  have hgather : gatherAll s'.options final 0 s'.generators =
      gatherAll s'.options s'.tables 0 s'.generators := by
    refine gatherAll_congr fun i generator hi => ?_
    have hmem := List.mem_of_getElem? hi
    rw [Nat.zero_add]
    exact Solves.gather_again (r := s'.context last.again) (w generator hmem)
      (hsolves.of_getElem? hi) (plain hi) (agree generator hmem)
  rw [run_again htexts hpending, hends.shown_eq, hgather]
  exact verdict_eq aligned hlast

end Session

namespace Census

open Session Syntax

/-- Three files of one identifier; only the one in the middle has a class. -/
def middle : Compilation :=
  ⟨[⟨⟨1⟩, "a.cs", .unit [] []⟩,
    ⟨⟨1⟩, "b.cs", .unit [] [(Node.declaration .classType "B").marked
      ["Counted"]]⟩,
    ⟨⟨1⟩, "c.cs", .unit [] []⟩]⟩

private theorem middle_endsAgree : ∀ g ∈ [generator], g.EndsAgree middle.trees := by
  rintro g (_ | ⟨_, ⟨⟩⟩)
  rintro s (_ | ⟨_, _ | ⟨_, _ | ⟨_, _ | ⟨_, _ | ⟨_, _ | ⟨_, ⟨⟩⟩⟩⟩⟩⟩⟩)
  · trivial
  · have hagree : @EndsAgree _ _ (List Generated) _ (·.id)
        (mappedIn (·.kind == .classType)
          fun t n => (⟨n.name.getD "", t.path⟩ : Generated)) middle.trees := by
      decide +kernel
    exact hagree
  · exact ⟨by decide +kernel, by decide +kernel⟩
  · trivial
  · trivial
  · trivial

theorem middle_shows :
    ∃ s, (blank.perform (.run middle .never)).outcome = .ok s ∧
      s.shown = [("census", [⟨"B", "b.cs"⟩, ⟨"B!", ""⟩])] ∧
      (s.run middle).outcome.map shown = .ok s.shown := by
  have hok := ok_of_isSome blank
    (show (blank.perform (.run middle .never)).outcome.toOption.isSome = true
      by decide +kernel)
  have hagain := rerun_shows built .start rfl rfl hok middle_endsAgree
  exact ⟨_, hok, by decide +kernel, hagain⟩

def lost : Compilation :=
  ⟨[⟨⟨1⟩, "a.cs", .unit [] [.declaration .classType "A"]⟩,
    ⟨⟨1⟩, "b.cs", .unit [] []⟩]⟩

/-- The second run loses the source that the first one has shown. -/
theorem lost_not_shown_again :
    ∃ s, (blank.run lost).outcome = .ok s ∧
      s.shown = [("census", [⟨"A", "a.cs"⟩])] ∧
      (s.run lost).outcome.map shown = .ok [("census", [])] := by
  have hok := ok_of_isSome blank
    (show (blank.run lost).outcome.toOption.isSome = true by decide +kernel)
  exact ⟨_, hok, by decide +kernel, by decide +kernel⟩

end Census

end Regen
