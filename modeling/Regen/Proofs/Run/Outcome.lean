import Regen.Proofs.Run.Equations

/-!
# How a run ends

Step after step a run extends a solution of the equations, so it ends with a
solution for every generator; it then fails exactly where the sources of one
generator repeat a hint.
-/

namespace Regen

open Syntax

variable {U : Type}

theorem Traced.bind_ok {α β : Type} (journal : Journal) (a : α)
    (f : α → Traced β) :
    (⟨journal, .ok a⟩ : Traced α) >>= f =
      ⟨journal ++ (f a).journal, (f a).outcome⟩ := rfl

private theorem Traced.lift_ok_bind {α β : Type} (a : α) (f : α → Traced β) :
    Traced.lift (.ok a) >>= f = f a := rfl

structure Store.Fits (tables : Store (Carrier U)) (index : Nat)
    (generators : List (Generator U)) : Prop where
  distinct : tables.Distinct
  typed : ∀ i generator, generators[i]? = some generator →
    tables.Typed ⟨index + i⟩ generator.graph

theorem Store.Fits.tail {tables : Store (Carrier U)} {index : Nat}
    {generator : Generator U} {generators : List (Generator U)}
    (h : tables.Fits index (generator :: generators)) :
    tables.Fits (index + 1) generators where
  distinct := h.distinct
  typed i g hi := by
    rw [Nat.add_right_comm]
    exact h.typed (i + 1) g hi

namespace RunContext

variable [BEq U] {r : RunContext U} {g : GraphId} {graph : Graph U}

/-! ## The loop over the steps -/

/-- The first `n` steps have run, and nothing else has changed. -/
structure Stage (r : RunContext U) (g : GraphId) (graph : Graph U)
    (base : Store (Carrier U)) (n : Nat) (tables : Store (Carrier U)) :
    Prop where
  step : ∀ {id s}, graph.step? id = some s → id.index < n → ∀ part,
    tables.find? ⟨g, id, part⟩ = r.published g s tables part
  ahead : ∀ key, key.graph = g → n ≤ key.step.index → tables.find? key = none
  others : ∀ key, key.graph ≠ g → tables.find? key = base.find? key
  distinct : tables.Distinct

section

variable {base tables : Store (Carrier U)} {n : Nat} {s : GraphStep U}
  (w : graph.WellFormed) (typed : r.previous.Typed g graph)

include w typed

theorem Stage.readable (h : Stage r g graph base n tables)
    (hs : graph.step? ⟨n⟩ = some s) :
    Step.Readable (r.stepContext g s.id tables) s.step := by
  have hid : s.id = ⟨n⟩ := w.id_eq hs
  refine ⟨?_, w.typed_input hs fun {id u} hu hlt part t ht => ?_,
    w.typed_input hs fun hu _ => typed hu⟩
  · intro part t ht
    refine typed hs part t ?_
    rw [← hid]
    exact ht
  · have hpublished : r.published g u tables part = some t :=
      (h.step hu hlt part).symm.trans ht
    refine published_type (fun t ht => typed hu part t ?_) hpublished
    rwa [← w.id_eq hu]

omit typed in
theorem Stage.publish (distinct : r.previous.Distinct)
    (h : Stage r g graph base n tables) (hs : graph.step? ⟨n⟩ = some s) :
    Stage r g graph base (n + 1) (r.publish g s tables) := by
  have hid : s.id = ⟨n⟩ := w.id_eq hs
  have hclear : ∀ part, tables.find? ⟨g, s.id, part⟩ = none := fun part =>
    h.ahead _ rfl (Nat.le_of_eq (congrArg StepId.index hid).symm)
  have hfind := find?_publish (r := r) distinct hclear
  -- the tables that a step up to this one reads are not touched
  have hsame : ∀ {id u}, graph.step? id = some u → id.index ≤ n → ∀ part,
      r.published g u tables part =
        r.published g u (r.publish g s tables) part := by
    intro id u hu hle part
    refine published_congr (fun x hx => ?_) part
    have hlt : x.1.index < id.index := w.earlier_of_reads hu hx
    rw [hfind, if_neg]
    rintro ⟨-, hstep⟩
    have hx : x.1 = ⟨n⟩ := hstep.trans hid
    rw [hx] at hlt
    exact absurd hlt (Nat.not_lt.2 hle)
  constructor
  case step =>
    intro id u hu hlt part
    rw [← hsame hu (Nat.lt_succ_iff.1 hlt), hfind]
    by_cases hid' : id = s.id
    · subst hid'
      rw [hid] at hu
      obtain rfl : s = u := Option.some.inj (hs.symm.trans hu)
      exact if_pos ⟨rfl, rfl⟩
    · rw [if_neg fun hkey => hid' hkey.2]
      refine h.step hu ?_ part
      have hne : id.index ≠ n := by
        rintro rfl
        exact hid' hid.symm
      omega
  case ahead =>
    intro key hkey hle
    rw [hfind, if_neg]
    · exact h.ahead key hkey (by omega)
    · rintro ⟨-, hstep⟩
      rw [hstep, hid] at hle
      exact absurd hle (by simp)
  case others =>
    intro key hkey
    rw [hfind, if_neg fun heq => hkey heq.1]
    exact h.others key hkey
  case distinct => exact distinct_publish h.distinct

/-- What the steps do and report can be read off the tables at the end. -/
theorem foldlM_runStep (distinct : r.previous.Distinct) (name : String)
    (done : List (GraphStep U)) {rest : List (GraphStep U)}
    (hsteps : graph.steps = done ++ rest)
    {p : Progress U} (h : Stage r g graph base done.length p.tables) :
    ∃ tables', rest.foldlM (r.runStep g name) p =
        ⟨rest.flatMap (r.actions g name · tables'),
          .ok ⟨tables', p.steps ++ rest.flatMap (r.reported g · tables')⟩⟩ ∧
      Stage r g graph base graph.steps.length tables' ∧
      ∀ key, key.graph = g → key.step.index < done.length →
        tables'.find? key = p.tables.find? key := by
  induction rest generalizing done p with
  | nil =>
      rw [List.append_nil] at hsteps
      refine ⟨p.tables, ?_, hsteps ▸ h, fun _ _ _ => rfl⟩
      rw [List.flatMap_nil, List.flatMap_nil, List.append_nil]
      rfl
  | cons s rest ih =>
      have hs : graph.step? ⟨done.length⟩ = some s := by
        simp [Graph.step?, hsteps]
      have hid : s.id = ⟨done.length⟩ := w.id_eq hs
      have clear : ∀ part, p.tables.find? ⟨g, s.id, part⟩ = none :=
        fun part => h.ahead _ rfl (Nat.le_of_eq (congrArg StepId.index hid).symm)
      have hrun := runStep_eq distinct name clear (h.readable w typed hs)
      obtain ⟨tables', hrest, hend, hearlier⟩ := ih (done ++ [s])
        (p := ⟨r.publish g s p.tables, p.steps ++ r.reported g s p.tables⟩)
        (by simp [hsteps]) (by
          rw [List.length_append]
          exact h.publish w distinct hs)
      have hkept : ∀ key, key.graph = g → key.step.index < done.length →
          tables'.find? key = p.tables.find? key := by
        intro key hkey hlt
        rw [hearlier key hkey (by rw [List.length_append]; omega),
          find?_publish distinct clear, if_neg]
        rintro ⟨-, hstep⟩
        rw [hstep, hid] at hlt
        exact absurd hlt (Nat.lt_irrefl _)
      have hreads : ∀ x ∈ s.step.reads,
          p.tables.find? (.output g x.1) = tables'.find? (.output g x.1) :=
        fun x hx => (hkept _ rfl (w.earlier_of_reads hs hx)).symm
      refine ⟨tables', ?_, hend, hkept⟩
      rw [List.foldlM_cons, hrun, Traced.bind_ok, hrest, actions_congr hreads,
        reported_congr hreads, List.flatMap_cons, List.flatMap_cons,
        List.append_assoc]

end

/-! ## The sources of a generator -/

def gather (options : Options) (g : GraphId) (graph : Graph U)
    (tables : Store (Carrier U)) : List Generated :=
  (graph.enabledOutputs options).flatMap fun (step, _) =>
    (tables.read .source (.output g step)).values

omit [BEq U] in
theorem gather_congr {options : Options} {tables tables' : Store (Carrier U)}
    (h : ∀ key, key.graph = g → tables.find? key = tables'.find? key) :
    gather options g graph tables = gather options g graph tables' := by
  unfold gather
  refine congrArg (List.flatMap · _) (funext fun (step, _) => ?_)
  dsimp only
  rw [Store.read_congr (h (.output g step) rfl)]

private theorem mapM_ok {ε α β : Type} {f : α → Except ε β} {f' : α → β}
    {as : List α} (h : ∀ a ∈ as, f a = .ok (f' a)) :
    as.mapM f = .ok (as.map f') := by
  induction as with
  | nil => rfl
  | cons a as ih =>
      rw [List.mapM_cons, h a (by simp), ih fun b hb => h b (by simp [hb])]
      rfl

omit [BEq U] in
private theorem sources_eq (w : graph.WellFormed) {tables : Store (Carrier U)}
    (typed : tables.Typed g graph) :
    r.sources g graph tables = .ok (gather r.options g graph tables) := by
  have hread : ∀ x ∈ graph.enabledOutputs r.options,
      tables.getD .source (.output g x.1) =
        .ok (tables.read .source (.output g x.1)) := by
    intro x hx
    obtain ⟨s, input, hs, hstep, -⟩ := w.enabled_step hx
    refine Store.getD_eq fun t ht => ?_
    have htype := typed hs .output t ht
    rw [hstep] at htype
    exact (Option.some.inj htype).symm
  rw [sources, Graph.filter_isEnabled, mapM_ok hread]
  simp [gather, List.flatMap_map, bind, Except.bind, pure, Except.pure]

theorem Solves.typed (w : graph.WellFormed) (typed : r.previous.Typed g graph)
    {tables : Store (Carrier U)} (h : r.Solves g graph tables) :
    tables.Typed g graph := by
  intro id s hs part t ht
  rw [h.step hs] at ht
  refine published_type (fun t ht => typed hs part t ?_) ht
  rwa [← w.id_eq hs]

private theorem Stage.solves {base tables : Store (Carrier U)}
    (h : Stage r g graph base graph.steps.length tables) :
    r.Solves g graph tables where
  step hs := h.step hs (Graph.WellFormed.index_lt hs)
  beyond key hkey hnone :=
    h.ahead key hkey (List.getElem?_eq_none_iff.1 hnone)

theorem foldlM_steps (w : graph.WellFormed) (distinct : r.previous.Distinct)
    (typed : r.previous.Typed g graph) (name : String)
    {tables : Store (Carrier U)} (hdistinct : tables.Distinct)
    (clear : ∀ key, key.graph = g → tables.find? key = none) :
    ∃ tables', r.Solves g graph tables' ∧ tables'.Distinct ∧
      (∀ key, key.graph ≠ g → tables'.find? key = tables.find? key) ∧
      graph.steps.foldlM (r.runStep g name) { tables := tables } =
        ⟨graph.steps.flatMap (r.actions g name · tables'),
          .ok ⟨tables', graph.steps.flatMap (r.reported g · tables')⟩⟩ := by
  have hstart : Stage r g graph tables 0 tables :=
    ⟨fun _ hlt => absurd hlt (Nat.not_lt_zero _), fun key hkey _ =>
      clear key hkey, fun _ _ => rfl, hdistinct⟩
  obtain ⟨tables', hrun, hend, -⟩ := foldlM_runStep w typed distinct name []
    (p := { tables := tables }) rfl hstart
  exact ⟨tables', hend.solves, hend.distinct, hend.others, hrun⟩

private theorem runGenerator_eq {generator : Generator U}
    (w : generator.graph.WellFormed)
    (distinct : r.previous.Distinct)
    (typed : r.previous.Typed g generator.graph) {tables : Store (Carrier U)}
    (hdistinct : tables.Distinct)
    (clear : ∀ key, key.graph = g → tables.find? key = none) :
    ∃ tables', r.Solves g generator.graph tables' ∧ tables'.Distinct ∧
      (∀ key, key.graph ≠ g → tables'.find? key = tables.find? key) ∧
      r.runGenerator g generator tables =
        ⟨generator.graph.steps.flatMap (r.actions g generator.name · tables'),
          (distinctHints generator.name
            (gather r.options g generator.graph tables')).map fun sources =>
              (tables', ⟨generator.name, sources,
                generator.graph.steps.flatMap (r.reported g · tables')⟩)⟩ := by
  obtain ⟨tables', hsolves, hdistinct', hothers, hrun⟩ :=
    foldlM_steps w distinct typed generator.name hdistinct clear
  refine ⟨tables', hsolves, hdistinct', hothers, ?_⟩
  have hsources := sources_eq (r := r) w (hsolves.typed w typed)
  rw [runGenerator, hrun, Traced.bind_ok, hsources, Traced.lift_ok_bind]
  cases distinctHints generator.name
    (gather r.options g generator.graph tables') with
  | error e => exact congrArg₂ Traced.mk (List.append_nil _) rfl
  | ok sources => exact congrArg₂ Traced.mk (List.append_nil _) rfl

theorem Solves.congr {tables tables' : Store (Carrier U)}
    (h : r.Solves g graph tables)
    (hsame : ∀ key, key.graph = g → tables.find? key = tables'.find? key) :
    r.Solves g graph tables' where
  step hs part := by
    rw [← hsame _ rfl, h.step hs]
    exact published_congr (fun x _ => hsame (.output g x.1) rfl) part
  beyond key hkey hnone := by
    rw [← hsame key hkey]
    exact h.beyond key hkey hnone

end RunContext

/-! ## All generators -/

def GeneratorRun.shown (r : GeneratorRun) : String × List Generated :=
  (r.generator, r.sources)

namespace RunContext

def gatherAll (options : Options) (tables : Store (Carrier U)) :
    (index : Nat) → List (Generator U) → List (String × List Generated)
  | _, [] => []
  | index, generator :: generators =>
      (generator.name, gather options ⟨index⟩ generator.graph tables) ::
        gatherAll options tables (index + 1) generators

def repeatedHint? (shown : String × List Generated) : Option RunError :=
  (firstRepeat? [] (shown.2.map (·.hint))).map (.duplicateHint shown.1)

def verdict (shown : List (String × List Generated)) :
    Except RunError (List (String × List Generated)) :=
  match shown.findSome? repeatedHint? with
  | some e => .error e
  | none => .ok shown

private theorem verdict_cons (name : String) (sources : List Generated)
    (shown : List (String × List Generated)) :
    verdict ((name, sources) :: shown) =
      (distinctHints name sources).bind fun sources =>
        (verdict shown).map fun shown => (name, sources) :: shown := by
  simp only [verdict, distinctHints, List.findSome?_cons, repeatedHint?]
  cases firstRepeat? [] (sources.map (·.hint)) with
  | some hint => rfl
  | none =>
      change (match shown.findSome? repeatedHint? with
        | some e => _
        | none => _) = Except.map _ (match shown.findSome? repeatedHint? with
        | some e => _
        | none => _)
      cases shown.findSome? repeatedHint? <;> rfl

theorem gatherAll_congr {options : Options} {tables tables' : Store (Carrier U)}
    {index : Nat} {generators : List (Generator U)}
    (h : ∀ i generator, generators[i]? = some generator →
      gather options ⟨index + i⟩ generator.graph tables =
        gather options ⟨index + i⟩ generator.graph tables') :
    gatherAll options tables index generators =
      gatherAll options tables' index generators := by
  induction generators generalizing index with
  | nil => rfl
  | cons generator generators ih =>
      have hfirst : gather options ⟨index⟩ generator.graph tables =
          gather options ⟨index⟩ generator.graph tables' := h 0 generator rfl
      rw [gatherAll, gatherAll, hfirst, ih fun i g hi => ?_]
      rw [Nat.add_right_comm]
      exact h (i + 1) g hi

variable [BEq U]

/-- The store holds what the run publishes for these generators. -/
structure SolvesAll (r : RunContext U) (index : Nat)
    (generators : List (Generator U)) (tables : Store (Carrier U)) : Prop where
  solves : ∀ i generator, generators[i]? = some generator →
    r.Solves ⟨index + i⟩ generator.graph tables
  beyond : ∀ key, index + generators.length ≤ key.graph.index →
    tables.find? key = none
  distinct : tables.Distinct

theorem SolvesAll.of_getElem? {r : RunContext U}
    {generators : List (Generator U)} {tables : Store (Carrier U)}
    (h : r.SolvesAll 0 generators tables) {i : Nat} {generator : Generator U}
    (hi : generators[i]? = some generator) :
    r.Solves ⟨i⟩ generator.graph tables := by
  have hsolved := h.solves i generator hi
  rwa [Nat.zero_add] at hsolved

def runsAll (r : RunContext U) (tables : Store (Carrier U)) :
    (index : Nat) → List (Generator U) → List GeneratorRun
  | _, [] => []
  | index, generator :: generators =>
      ⟨generator.name, gather r.options ⟨index⟩ generator.graph tables,
          generator.graph.steps.flatMap (r.reported ⟨index⟩ · tables)⟩ ::
        runsAll r tables (index + 1) generators

def actionsAll (r : RunContext U) (tables : Store (Carrier U)) :
    (index : Nat) → List (Generator U) → Journal
  | _, [] => []
  | index, generator :: generators =>
      generator.graph.steps.flatMap
          (r.actions ⟨index⟩ generator.name · tables) ++
        actionsAll r tables (index + 1) generators

theorem map_shown_runsAll (r : RunContext U) (tables : Store (Carrier U))
    (index : Nat) (generators : List (Generator U)) :
    (r.runsAll tables index generators).map (·.shown) =
      gatherAll r.options tables index generators := by
  induction generators generalizing index with
  | nil => rfl
  | cons generator generators ih =>
      rw [runsAll, gatherAll, List.map_cons, ih]
      rfl

theorem steps_of_mem_runsAll {r : RunContext U} {tables : Store (Carrier U)}
    {index : Nat} {generators : List (Generator U)} {run : GeneratorRun}
    (h : run ∈ r.runsAll tables index generators) :
    ∃ (i : Nat) (generator : Generator U), generators[i]? = some generator ∧
      run.steps =
        generator.graph.steps.flatMap (r.reported ⟨index + i⟩ · tables) := by
  induction generators generalizing index with
  | nil => contradiction
  | cons generator generators ih =>
      rcases List.mem_cons.1 h with rfl | h
      · exact ⟨0, generator, rfl, rfl⟩
      · obtain ⟨i, generator', hi, hsteps⟩ := ih h
        rw [Nat.add_right_comm] at hsteps
        exact ⟨i + 1, generator', hi, hsteps⟩

theorem mem_actionsAll {r : RunContext U} {tables : Store (Carrier U)}
    {index : Nat} {generators : List (Generator U)} {a : Action} :
    a ∈ r.actionsAll tables index generators ↔
      ∃ i generator, generators[i]? = some generator ∧
        ∃ s ∈ generator.graph.steps,
          a ∈ r.actions ⟨index + i⟩ generator.name s tables := by
  induction generators generalizing index with
  | nil => simp [actionsAll]
  | cons generator generators ih =>
      rw [actionsAll, List.mem_append, List.mem_flatMap, ih]
      constructor
      · rintro (hfirst | ⟨i, generator', hi, hrest⟩)
        · exact ⟨0, generator, rfl, hfirst⟩
        · rw [Nat.add_right_comm] at hrest
          exact ⟨i + 1, generator', hi, hrest⟩
      · rintro ⟨_ | i, generator', hi, hsome⟩
        · obtain rfl : generator = generator' := Option.some.inj hi
          exact .inl hsome
        · rw [← Nat.add_assoc, Nat.add_right_comm] at hsome
          exact .inr ⟨i, generator', hi, hsome⟩

theorem getElem?_runsAll (r : RunContext U) (tables : Store (Carrier U))
    (index : Nat) (generators : List (Generator U)) (i : Nat) :
    (r.runsAll tables index generators)[i]? =
      generators[i]?.map fun generator =>
        ⟨generator.name, gather r.options ⟨index + i⟩ generator.graph tables,
          generator.graph.steps.flatMap (r.reported ⟨index + i⟩ · tables)⟩ := by
  induction generators generalizing index i with
  | nil => rfl
  | cons generator generators ih =>
      cases i with
      | zero => rfl
      | succ i =>
          rw [runsAll, List.getElem?_cons_succ, ih, List.getElem?_cons_succ,
            Nat.add_right_comm, Nat.add_assoc]

theorem isInfix_actionsAll (r : RunContext U) (tables : Store (Carrier U))
    (index : Nat) {generators : List (Generator U)} {i : Nat}
    {generator : Generator U} (hi : generators[i]? = some generator) :
    generator.graph.steps.flatMap
        (r.actions ⟨index + i⟩ generator.name · tables) <:+:
      r.actionsAll tables index generators := by
  induction generators generalizing index i with
  | nil => contradiction
  | cons first generators ih =>
      rw [actionsAll]
      cases i with
      | zero =>
          obtain rfl : first = generator := Option.some.inj hi
          exact (List.prefix_append _ _).isInfix
      | succ i =>
          have hrest := ih (index + 1) hi
          rw [Nat.add_right_comm] at hrest
          exact hrest.trans (List.suffix_append _ _).isInfix

omit [BEq U] in
theorem eq_of_verdict {shown shown' : List (String × List Generated)}
    (h : verdict shown = .ok shown') : shown' = shown := by
  unfold verdict at h
  split at h
  · contradiction
  · exact (Except.ok.inj h).symm

omit [BEq U] in
private theorem eq_of_distinctHints {name : String} {sources sources' : List Generated}
    (h : distinctHints name sources = .ok sources') : sources' = sources := by
  unfold distinctHints at h
  split at h
  · contradiction
  · exact (Except.ok.inj h).symm

section

variable {r : RunContext U} {index : Nat} {generator : Generator U}
  {generators : List (Generator U)} {tables tables' final : Store (Carrier U)}

theorem SolvesAll.cons (hfirst : r.Solves ⟨index⟩ generator.graph tables')
    (hrest : r.SolvesAll (index + 1) generators final)
    (hown : ∀ key, key.graph = ⟨index⟩ →
      tables'.find? key = final.find? key) :
    r.SolvesAll index (generator :: generators) final where
  solves := by
    rintro (_ | i) g hi
    · obtain rfl : generator = g := Option.some.inj hi
      exact hfirst.congr hown
    · have hsolved := hrest.solves i g hi
      rwa [Nat.add_right_comm] at hsolved
  beyond key hle := by
    refine hrest.beyond key ?_
    rw [List.length_cons] at hle
    omega
  distinct := hrest.distinct

variable (hothers : ∀ key, key.graph ≠ ⟨index⟩ →
  tables'.find? key = tables.find? key)

include hothers

omit [BEq U]

theorem find?_none_after
    (clear : ∀ key, index ≤ key.graph.index → tables.find? key = none)
    {key : TableKey} (hle : index + 1 ≤ key.graph.index) :
    tables'.find? key = none := by
  rw [hothers key]
  · exact clear key (by omega)
  · rintro hkey
    rw [hkey] at hle
    exact absurd hle (by simp)

theorem find?_before {key : TableKey} (hlt : key.graph.index < index) :
    tables'.find? key = tables.find? key := by
  refine hothers key ?_
  rintro hkey
  rw [hkey] at hlt
  exact absurd hlt (by simp)

end

theorem runAll_eq {r : RunContext U} {index : Nat}
    {generators : List (Generator U)}
    (w : ∀ generator ∈ generators, generator.graph.WellFormed)
    (fits : r.previous.Fits index generators) (tables : Store (Carrier U))
    (hdistinct : tables.Distinct)
    (clear : ∀ key, index ≤ key.graph.index → tables.find? key = none) :
    ∃ final, r.SolvesAll index generators final ∧
      (∀ key, key.graph.index < index → final.find? key = tables.find? key) ∧
      (r.runAll index generators tables).outcome =
        (verdict (gatherAll r.options final index generators)).map
          (fun _ => (final, r.runsAll final index generators)) ∧
      (∀ shown, verdict (gatherAll r.options final index generators) =
          .ok shown →
        (r.runAll index generators tables).journal =
          r.actionsAll final index generators) := by
  induction generators generalizing index tables with
  | nil =>
      exact ⟨tables, ⟨nofun, fun key hle => clear key (by simpa using hle),
        hdistinct⟩, fun _ _ => rfl, rfl, fun _ _ => rfl⟩
  | cons generator generators ih =>
      have wfirst := w generator (by simp)
      obtain ⟨tables', hsolves, hdistinct', hothers, hfirst⟩ :=
        runGenerator_eq (g := ⟨index⟩) wfirst fits.distinct
          (fits.typed 0 generator rfl) hdistinct
          fun key hkey => clear key (by simp [hkey])
      obtain ⟨final, hrest, hbefore, houtcome, hjournal⟩ := ih
        (fun g hg => w g (by simp [hg])) fits.tail tables' hdistinct'
        fun _ => find?_none_after hothers clear
      have hown : ∀ key, key.graph = ⟨index⟩ →
          tables'.find? key = final.find? key := fun key hkey =>
        (hbefore key (by simp [hkey])).symm
      have hreported : generator.graph.steps.flatMap
          (r.reported ⟨index⟩ · tables') =
            generator.graph.steps.flatMap (r.reported ⟨index⟩ · final) :=
        List.flatMap_congr fun s _ => reported_congr fun x _ =>
          hown (.output ⟨index⟩ x.1) rfl
      have hactions : generator.graph.steps.flatMap
          (r.actions ⟨index⟩ generator.name · tables') =
            generator.graph.steps.flatMap
              (r.actions ⟨index⟩ generator.name · final) :=
        List.flatMap_congr fun s _ => actions_congr fun x _ =>
          hown (.output ⟨index⟩ x.1) rfl
      rw [gather_congr hown, hreported, hactions] at hfirst
      refine ⟨final, .cons hsolves hrest hown, fun key hlt => ?_, ?_⟩
      · rw [hbefore key (by omega), find?_before hothers hlt]
      · rw [gatherAll, verdict_cons, runAll, hfirst]
        cases hhints : distinctHints generator.name
            (gather r.options ⟨index⟩ generator.graph final) with
        | error e => exact ⟨rfl, nofun⟩
        | ok sources =>
            obtain rfl := eq_of_distinctHints hhints
            rw [Except.map, Traced.bind_ok]
            dsimp only
            generalize r.runAll (index + 1) generators tables' = ran
              at houtcome hjournal ⊢
            obtain ⟨journal, outcome⟩ := ran
            obtain rfl : outcome = _ := houtcome
            cases hverdict : verdict
                (gatherAll r.options final (index + 1) generators) with
            | error e => exact ⟨rfl, nofun⟩
            | ok shown =>
                refine ⟨rfl, fun _ _ => ?_⟩
                rw [actionsAll, ← hjournal shown hverdict]
                exact congrArg (_ ++ ·) (List.append_nil journal)

end RunContext

end Regen
