import Regen.Proofs.Run.Carried
import Regen.Proofs.Run.Outcome

/-!
# The sources of a run

The sources of a generator are the live values in the tables of its enabled
outputs, one output after the other.  Nothing looks at their hints before the
last step of the generator, so the tables are the same whether a hint comes
twice or not; the run is then refused for the first generator that repeats one.
-/

namespace Regen

/-! ## Repeated hints -/

def DistinctHints (sources : List Generated) : Prop :=
  (sources.map (·.hint)).Nodup

/-- No hint comes twice before this one does. -/
def RepeatsFirst (sources : List Generated) (hint : String) : Prop :=
  ∃ before after, sources.map (·.hint) = before ++ hint :: after ∧
    before.Nodup ∧ hint ∈ before

private theorem firstRepeat?_eq_some_iff {seen hints : List String} {hint : String} :
    firstRepeat? seen hints = some hint ↔ ∃ before after,
      hints = before ++ hint :: after ∧ before.Nodup ∧
        (∀ h ∈ before, h ∉ seen) ∧ (hint ∈ before ∨ hint ∈ seen) := by
  induction hints generalizing seen with
  | nil => simp [firstRepeat?]
  | cons h hints ih =>
      by_cases hseen : h ∈ seen
      · rw [firstRepeat?, if_pos hseen]
        constructor
        · rintro ⟨⟩
          exact ⟨[], hints, rfl, .nil, by simp, .inr hseen⟩
        · rintro ⟨_ | ⟨b, before⟩, after, hsplit, -, hfresh, -⟩
          · rw [(List.cons.inj hsplit).1]
          · obtain rfl := (List.cons.inj hsplit).1
            exact absurd hseen (hfresh h List.mem_cons_self)
      · rw [firstRepeat?, if_neg hseen, ih]
        constructor
        · rintro ⟨before, after, rfl, hnodup, hfresh, hrepeats⟩
          refine ⟨h :: before, after, rfl, ?_⟩
          grind
        · rintro ⟨_ | ⟨b, before⟩, after, hsplit, hnodup, hfresh, hrepeats⟩
          · obtain rfl := (List.cons.inj hsplit).1
            simp [hseen] at hrepeats
          · obtain ⟨rfl, rfl⟩ := List.cons.inj hsplit
            exact ⟨before, after, rfl, by grind⟩

namespace RunContext

private theorem repeatedHint?_eq_none_iff {shown : String × List Generated} :
    repeatedHint? shown = none ↔ DistinctHints shown.2 := by
  rw [repeatedHint?, Option.map_eq_none_iff, firstRepeat?_eq_none_iff]
  simp [DistinctHints]

private theorem repeatedHint?_eq_some_iff {shown : String × List Generated}
    {e : RunError} : repeatedHint? shown = some e ↔
      ∃ hint, RepeatsFirst shown.2 hint ∧ e = .duplicateHint shown.1 hint := by
  rw [repeatedHint?, Option.map_eq_some_iff]
  refine exists_congr fun hint => and_congr ?_ eq_comm
  simp [firstRepeat?_eq_some_iff, RepeatsFirst]

theorem verdict_eq_ok_iff {shown shown' : List (String × List Generated)} :
    verdict shown = .ok shown' ↔
      shown' = shown ∧ ∀ x ∈ shown, DistinctHints x.2 := by
  simp only [← repeatedHint?_eq_none_iff, ← List.findSome?_eq_none_iff]
  rw [verdict]
  cases shown.findSome? repeatedHint? <;> simp [eq_comm]

/-- The error tells the first generator that repeats a hint, and the hint. -/
def Refuses (shown : List (String × List Generated)) (e : RunError) : Prop :=
  ∃ before name sources after hint,
    shown = before ++ (name, sources) :: after ∧
      (∀ x ∈ before, DistinctHints x.2) ∧ RepeatsFirst sources hint ∧
      e = .duplicateHint name hint

theorem verdict_eq_error_iff {shown : List (String × List Generated)}
    {e : RunError} : verdict shown = .error e ↔ Refuses shown e := by
  have hfound : verdict shown = .error e ↔
      shown.findSome? repeatedHint? = some e := by
    rw [verdict]
    cases shown.findSome? repeatedHint? <;> simp
  rw [hfound, List.findSome?_eq_some_iff]
  simp only [repeatedHint?_eq_none_iff, repeatedHint?_eq_some_iff, Refuses]
  constructor
  · rintro ⟨before, ⟨name, sources⟩, after, hsplit, ⟨hint, hrepeats, he⟩, hbefore⟩
    exact ⟨before, name, sources, after, hint, hsplit, hbefore, hrepeats, he⟩
  · rintro ⟨before, name, sources, after, hint, hsplit, hbefore, hrepeats, he⟩
    exact ⟨before, (name, sources), after, hsplit, ⟨hint, hrepeats, he⟩, hbefore⟩

end RunContext

/-! ## The tables of the outputs -/

variable {U : Type}

/-- Each output has a table, and the sources are the live values of these. -/
def Store.Shows (tables : Store (Carrier U)) (g : GraphId)
    (outputs : List (StepId × OutputKind)) (sources : List Generated) : Prop :=
  ∃ ts : List (Table Generated),
    (outputs.map fun x => tables.find? (.output g x.1)) =
        ts.map (fun t => some ⟨.source, t⟩) ∧
      sources = ts.flatMap (·.values)

theorem Store.Shows.congr {tables tables' : Store (Carrier U)} {g : GraphId}
    {outputs : List (StepId × OutputKind)} {sources : List Generated}
    (h : tables.Shows g outputs sources)
    (hsame : ∀ x ∈ outputs,
      tables'.find? (.output g x.1) = tables.find? (.output g x.1)) :
    tables'.Shows g outputs sources := by
  obtain ⟨ts, hts, hsources⟩ := h
  exact ⟨ts, (List.map_congr_left hsame).trans hts, hsources⟩

namespace RunContext

theorem getElem?_gatherAll (options : Options) (tables : Store (Carrier U))
    (index : Nat) (generators : List (Generator U)) (i : Nat) :
    (gatherAll options tables index generators)[i]? =
      generators[i]?.map fun generator =>
        (generator.name, gather options ⟨index + i⟩ generator.graph tables) := by
  induction generators generalizing index i with
  | nil => rfl
  | cons generator generators ih =>
      cases i with
      | zero => rfl
      | succ i =>
          rw [gatherAll, List.getElem?_cons_succ, ih, List.getElem?_cons_succ,
            Nat.add_right_comm, Nat.add_assoc]

variable [BEq U] {r : RunContext U}

theorem Solves.shows {g : GraphId} {graph : Graph U} (w : graph.WellFormed)
    {tables : Store (Carrier U)} (h : r.Solves g graph tables)
    (resumes : r.Resumes g graph) :
    tables.Shows g (graph.enabledOutputs r.options)
      (gather r.options g graph tables) := by
  refine ⟨(graph.enabledOutputs r.options).map fun x =>
    tables.read .source (.output g x.1), ?_, ?_⟩
  · rw [List.map_map]
    refine List.map_congr_left fun x hx => ?_
    obtain ⟨s, input, hs, hstep, hout⟩ := w.enabled_step hx
    have hshape := h.shaped_step w hs resumes .output
    rw [hout, if_neg (by simp), hstep] at hshape
    obtain ⟨⟨type, t⟩, ht, htype⟩ := Option.map_eq_some_iff.1 hshape
    obtain rfl : type = .source := htype
    have hread := Store.read_of_find? ht
    rw [TableKey.output, ht, Function.comp_apply, TableKey.output, hread]
  · rw [List.flatMap_map]
    rfl

/-! ## All steps of all generators -/

def evaluateAll (r : RunContext U) : (index : Nat) → List (Generator U) →
    Store (Carrier U) → Traced (Store (Carrier U))
  | _, [], tables => return tables
  | index, generator :: generators, tables => do
      let p ← generator.graph.steps.foldlM
        (r.runStep ⟨index⟩ generator.name) { tables := tables }
      r.evaluateAll (index + 1) generators p.tables

theorem evaluateAll_eq {index : Nat} {generators : List (Generator U)}
    (w : ∀ generator ∈ generators, generator.graph.WellFormed)
    (fits : r.previous.Fits index generators) (tables : Store (Carrier U))
    (hdistinct : tables.Distinct)
    (clear : ∀ key, index ≤ key.graph.index → tables.find? key = none) :
    ∃ final, r.SolvesAll index generators final ∧
      (∀ key, key.graph.index < index → final.find? key = tables.find? key) ∧
      (r.evaluateAll index generators tables).outcome = .ok final := by
  induction generators generalizing index tables with
  | nil =>
      exact ⟨tables, ⟨nofun, fun key hle => clear key (by simpa using hle),
        hdistinct⟩, fun _ _ => rfl, rfl⟩
  | cons generator generators ih =>
      obtain ⟨tables', hsolves, hdistinct', hothers, hfirst⟩ :=
        foldlM_steps (g := ⟨index⟩) (w generator (by simp)) fits.distinct
          (fits.typed 0 generator rfl) generator.name hdistinct
          fun key hkey => clear key (by simp [hkey])
      obtain ⟨final, hrest, hbefore, houtcome⟩ := ih
        (fun g hg => w g (by simp [hg])) fits.tail tables' hdistinct'
        fun _ => find?_none_after hothers clear
      refine ⟨final, .cons hsolves hrest fun key hkey => ?_,
        fun key hlt => ?_, ?_⟩
      · exact (hbefore key (by simp [hkey])).symm
      · rw [hbefore key (by omega), find?_before hothers hlt]
      · rw [evaluateAll, hfirst, Traced.bind_ok]
        exact houtcome

end RunContext

end Regen
