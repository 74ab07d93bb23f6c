import Regen.Proofs.Run.Meaning
import Regen.Proofs.Session.Rerun

/-!
# What a first run publishes

A session that has published nothing yet has nothing to compare with.  Its first
run gives every step the values that the step stands for over the files of the
compilation, whether or not these share an identifier.
-/

namespace Regen

variable {U : Type} [BEq U] {generators : List (Generator U)}
  {options : Options} {s s' : Session U}

namespace Session

/--
The first run gives every step that is not left out the table of what it stands
for, with each value tagged as added.  A step that promises a single value
stands for one.
-/
theorem run_denotes (built : ∀ g ∈ generators, g.Built)
    (h : Reached anyOperation generators options s) (hfirst : s.lastRun = none)
    {compilation : Compilation} {cancel : Cancellation}
    (hok : (s.run compilation cancel).outcome = .ok s') {i : Nat}
    {generator : Generator U} (hi : generators[i]? = some generator)
    {id : StepId} {gs : GraphStep U}
    (hs : generator.graph.step? id = some gs)
    (hout : options.disables gs.kind = false) :
    ∃ vs : List (Carrier U gs.step.type),
      (∀ ws, generator.graph.Denotes compilation.trees
        (TextEdit.applyFitting s.texts s.pending).1 id gs.step.type ws ↔
          ws = vs) ∧
      (∀ α, gs.step.promise? = some (.one, α) → ∃ v, vs = [v]) ∧
      s'.tables.find? (.output ⟨i⟩ id) =
        some ⟨gs.step.type, .allAdded vs⟩ := by
  have w : ∀ generator ∈ generators, generator.graph.WellFormed :=
    fun g hg => (built g hg).wellFormed
  have hw := w generator (List.mem_of_getElem? hi)
  have hsolves := (h.solvesAll (o := .run compilation cancel) w rfl
    hok).of_getElem? hi
  obtain ⟨rfl, rfl, aligned⟩ := h.generators_eq w
  obtain ⟨hdenotes, hfind⟩ := RunContext.Solves.denotes
    (r := s.context ⟨.full, compilation, _⟩) hw hsolves
    (fun key _ => aligned.unpublished hfirst key) hs hout
  exact ⟨_, fun ws => hdenotes.iff_eq, fun α => hdenotes.single hw hs, hfind⟩

end Session

omit [BEq U] in
private theorem Store.eq_of_allAdded {tables : Store (Carrier U)} {key : TableKey}
    {type : DataType} {vs ws : List (Carrier U type)}
    (h : tables.find? key = some ⟨type, .allAdded vs⟩)
    (hread : (tables.read type key).values = ws) : vs = ws := by
  rw [← hread, read_of_find? h, Table.values_allAdded]

/-! ## Marked classes in two files of one identifier -/

namespace Census

open Session Syntax

def inner : Node :=
  (Node.declaration .classType "Inner").marked ["Tally"]

/-- The alias is declared in the second file and borne in the first. -/
def nested : Compilation :=
  ⟨[⟨⟨1⟩, "a.cs", .unit []
      [(Node.declaration .classType "Outer").append [inner]]⟩,
    ⟨⟨1⟩, "b.cs", .unit [⟨true, some "Tally", "Lib.Counted"⟩]
      [.declaration .classType "Last"]⟩]⟩

def counting : Session Unit :=
  (blank.run nested).outcome.toOption.getD blank

theorem nested_denotes :
    (blank.run nested).outcome = .ok counting ∧
      (∀ ws, generator.graph.Denotes nested.trees [] ⟨1⟩ .source ws ↔
        ws = [⟨"Outer", "a.cs"⟩, ⟨"Inner", "a.cs"⟩, ⟨"Last", "b.cs"⟩]) ∧
      counting.tables.find? (.output ⟨0⟩ ⟨1⟩) = some ⟨.source, .allAdded
        [⟨"Outer", "a.cs"⟩, ⟨"Inner", "a.cs"⟩, ⟨"Last", "b.cs"⟩]⟩ ∧
      (∀ ws, generator.graph.Denotes nested.trees [] ⟨2⟩ .marked ws ↔
        ws = [⟨⟨1⟩, inner⟩]) ∧
      counting.tables.find? (.output ⟨0⟩ ⟨2⟩) =
        some ⟨.marked, .allAdded [⟨⟨1⟩, inner⟩]⟩ := by
  have hok : (blank.run nested).outcome = .ok counting :=
    ok_of_isSome blank (by decide +kernel)
  have hread : (counting.tables.read .source (.output ⟨0⟩ ⟨1⟩) :
      Table Generated).values =
        [⟨"Outer", "a.cs"⟩, ⟨"Inner", "a.cs"⟩, ⟨"Last", "b.cs"⟩] := by
    decide +kernel
  have hread' : (counting.tables.read .marked (.output ⟨0⟩ ⟨2⟩) :
      Table Marked).values = [⟨⟨1⟩, inner⟩] := by
    decide +kernel
  have hclasses : generator.graph.step? ⟨1⟩ = some _ := rfl
  have hcounted : generator.graph.step? ⟨2⟩ = some _ := rfl
  obtain ⟨vs, hdenotes, -, hfind⟩ := run_denotes built .start rfl hok
    (i := 0) rfl hclasses rfl
  obtain ⟨us, hdenotes', -, hfind'⟩ := run_denotes built .start rfl hok
    (i := 0) rfl hcounted rfl
  obtain rfl := Store.eq_of_allAdded hfind hread
  obtain rfl := Store.eq_of_allAdded hfind' hread'
  exact ⟨hok, hdenotes, hfind, hdenotes', hfind'⟩

end Census

end Regen
