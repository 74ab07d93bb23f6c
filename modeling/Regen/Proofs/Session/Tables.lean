import Regen.Proofs.Run.Tagged
import Regen.Proofs.Session.Published

/-!
# The tables of a session

What anyone may rely on who reads the tables that a run has published: the tags
say how the output differs from the one published before.
-/

namespace Regen

open Carrier (same)

variable {U : Type} [BEq U] {generators : List (Generator U)}
  {options : Options} {s s' : Session U}

namespace Session

theorem Reached.solvesAll {allowed : Session U → Operation → Prop}
    (w : ∀ generator ∈ generators, generator.graph.WellFormed)
    (h : Reached allowed generators options s) {o : Operation} {job : Job}
    (hjob : s.job? o = some job) (hok : (s.perform o).outcome = .ok s') :
    (s.context job).SolvesAll 0 generators s'.tables := by
  obtain ⟨rfl, -, aligned⟩ := h.generators_eq w
  rcases perform_cases w aligned hok with
    ⟨hnone, -⟩ | ⟨job', final, runs, hjob', hsolves, -, rfl⟩
  · rw [hjob] at hnone
    contradiction
  · obtain rfl : job = job' := Option.some.inj (hjob.symm.trans hjob')
    exact hsolves

/--
Whatever has come before, and whichever way the run takes, the entries of a
table are those of a comparison of its output with the table published before.
-/
theorem perform_tagged (built : ∀ g ∈ generators, g.Built)
    (h : Reached anyOperation generators options s) {o : Operation} {job : Job}
    (hjob : s.job? o = some job) (hok : (s.perform o).outcome = .ok s')
    {i : Nat} {generator : Generator U}
    (hi : generators[i]? = some generator) {id : StepId} {gs : GraphStep U}
    (hs : generator.graph.step? id = some gs) (htrees : gs.step ≠ .trees)
    (htexts : gs.step ≠ .texts) {part : Part}
    (hpart : part = .output ∨ part = .perInput ∨ part = .globalAliases)
    {type : DataType} {t : Table (Carrier U type)}
    (ht : s'.tables.find? ⟨⟨i⟩, id, part⟩ = some ⟨type, t⟩)
    (hrefl : ∀ a : Carrier U type, same type a a = true) :
    gs.step.partType part = some type ∧
      ∃ before, s.tables.getD type ⟨⟨i⟩, id, part⟩ = .ok before ∧
        t = Table.diff (same type) before t.values := by
  have w : ∀ generator ∈ generators, generator.graph.WellFormed :=
    fun g hg => (built g hg).wellFormed
  have hw := w generator (List.mem_of_getElem? hi)
  have hsolves := (h.solvesAll w hjob hok).of_getElem? hi
  obtain ⟨rfl, -, aligned⟩ := h.generators_eq w
  have typed : s.tables.Typed ⟨i⟩ generator.graph :=
    (resumes aligned (follows_of_job? hjob) hi).typed
  have htype : gs.step.partType part = some type :=
    hsolves.typed hw typed hs part _ ht
  refine ⟨htype, s.tables.read type ⟨⟨i⟩, id, part⟩,
    Store.getD_eq fun t' ht' => ?_,
    hsolves.tagged hw hs ⟨htrees, htexts, hpart⟩ ht hrefl⟩
  exact Option.some.inj ((typed hs part t' ht').symm.trans htype)

end Session

/-! ## Trees that share an identifier -/

namespace Lister

open Session Syntax

def shared : Compilation :=
  ⟨[⟨⟨1⟩, "a.cs", .unit [] []⟩, ⟨⟨1⟩, "c.cs", .unit [] []⟩,
    ⟨⟨1⟩, "d.cs", .unit [] []⟩]⟩

def treeStep : GraphStep Unit :=
  ⟨⟨1⟩, @Step.select Unit ⟨0⟩ .tree .source fun (t : Tree) => ⟨t.path, ""⟩,
    none, false⟩

def sharedTable : Table Generated :=
  ⟨[.ofCached ⟨"a.cs", ""⟩, ⟨⟨"c.cs", ""⟩, .modified⟩,
    .ofAdded ⟨"d.cs", ""⟩]⟩

theorem step?_treeStep : generator.graph.step? ⟨1⟩ = some treeStep := rfl

def sharedSources? (s : Session Unit) : Option (List (Entry Generated)) :=
  (s.perform (.run shared .never)).outcome.toOption.bind fun s' =>
    (s'.tables.at? .source (.output ⟨0⟩ ⟨1⟩)).map (·.entries)

private theorem exists_of_sharedSources? {s : Session Unit}
    (entries : List (Entry Generated)) (h : sharedSources? s = some entries) :
    ∃ s', (s.perform (.run shared .never)).outcome = .ok s' ∧
      s'.tables.find? (.output ⟨0⟩ ⟨1⟩) = some ⟨.source, ⟨entries⟩⟩ := by
  obtain ⟨s', hs', hentries⟩ := Option.bind_eq_some_iff.1 h
  obtain ⟨t, ht, rfl⟩ := Option.map_eq_some_iff.1 hentries
  refine ⟨s', ?_, Store.at?_eq_some.1 ht⟩
  cases houtcome : (s.perform (.run shared .never)).outcome with
  | error e =>
      rw [houtcome] at hs'
      contradiction
  | ok s'' =>
      rw [houtcome] at hs'
      rw [Option.some.inj hs']

theorem shared_tagged :
    ∃ s' before, (ran.perform (.run shared .never)).outcome = .ok s' ∧
      ran.tables.getD .source (.output ⟨0⟩ ⟨1⟩) = .ok before ∧
      s'.tables.find? (.output ⟨0⟩ ⟨1⟩) = some ⟨.source, sharedTable⟩ ∧
      sharedTable = Table.diff (same (U := Unit) .source) before
        sharedTable.values := by
  obtain ⟨s', hok, hfind⟩ := exists_of_sharedSources? (s := ran)
    sharedTable.entries (by decide +kernel)
  obtain ⟨-, before, hbefore, hdiff⟩ := perform_tagged all_built ran_reached
    rfl hok (i := 0) rfl step?_treeStep nofun nofun (.inl rfl) hfind
    (Carrier.same_refl .source)
  exact ⟨s', before, hok, hbefore, hfind, hdiff⟩

end Lister

end Regen
