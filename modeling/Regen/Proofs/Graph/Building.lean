import Mathlib.Logic.Relation
import Regen.Proofs.Graph.Registration

/-!
# Building, call by call

A client makes calls to a builder; each may issue a handle, and each takes
handles that calls before it issued or that come from other builders.  A foreign
handle can name any step, so it can spoil the graph; but then the graph never
comes out.  What comes out is in the order of its numbers, shares its two input
steps, and knows of each step whether it reads the texts.
-/

namespace Regen

open Syntax Relation

variable {U : Type}

namespace Step

private theorem kind_eq_texts {s : Step U} : s.kind = .texts ↔ s = .texts := by
  cases s <;> simp [kind]

end Step

namespace Graph

/-- The second step is one of those that the first one reads. -/
def Reads (graph : Graph U) (i j : StepId) : Prop :=
  ∃ s, graph.step? i = some s ∧ ∃ x ∈ s.step.reads, x.1 = j

structure Finished (graph : Graph U) : Prop where
  id_eq : ∀ {i s}, graph.step? ⟨i⟩ = some s → s.id = ⟨i⟩
  earlier : ∀ {i j}, graph.Reads i j → j.index < i.index
  no_output : ∀ {i j}, graph.Reads i j → ∃ s, graph.step? j = some s ∧
    ∀ input kind, s.step ≠ .output input kind
  trees_once : ∀ {i j s u}, graph.step? i = some s → graph.step? j = some u →
    s.step = .trees → u.step = .trees → i = j
  texts_once : ∀ {i j s u}, graph.step? i = some s → graph.step? j = some u →
    s.step = .texts → u.step = .texts → i = j
  outputs_eq : graph.outputs = graph.steps.filterMap fun s =>
    match s.step with
    | .output _ kind => some (s.id, kind)
    | _ => none
  readsTexts_iff : ∀ {i s}, graph.step? i = some s → (s.readsTexts = true ↔
    ∃ j u, ReflTransGen graph.Reads i j ∧ graph.step? j = some u ∧
      u.step = .texts)

private theorem WellFormed.readsTexts_iff_reaches {graph : Graph U}
    (w : graph.WellFormed) {i : StepId} {s : GraphStep U}
    (hs : graph.step? i = some s) : s.readsTexts = true ↔
      ∃ j u, ReflTransGen graph.Reads i j ∧ graph.step? j = some u ∧
        u.step = .texts := by
  constructor
  · obtain ⟨i⟩ := i
    induction i using Nat.strongRecOn generalizing s with
    | _ i ih =>
        intro hreads
        rcases (w.readsTexts_iff hs).1 hreads with
          htexts | ⟨input, hinput, u, hu, hreads⟩
        · exact ⟨_, s, .refl, hs, Step.kind_eq_texts.1 htexts⟩
        · obtain ⟨j, v, hpath, hv, htexts⟩ :=
            ih input.index (w.earlier hs input hinput) hu hreads
          rw [GraphStep.kind, ← Step.map_fst_reads, List.mem_map] at hinput
          exact ⟨j, v, hpath.head ⟨s, hs, hinput⟩, hv, htexts⟩
  · rintro ⟨j, v, hpath, hv, htexts⟩
    induction hpath using ReflTransGen.head_induction_on generalizing s with
    | refl =>
        obtain rfl := Option.some.inj (hs.symm.trans hv)
        exact (w.readsTexts_iff hs).2 (.inl (Step.kind_eq_texts.2 htexts))
    | head hfirst _ ih =>
        obtain ⟨t, ht, x, hx, rfl⟩ := hfirst
        obtain rfl := Option.some.inj (hs.symm.trans ht)
        obtain ⟨u, hu, -⟩ := w.promised hs x hx
        refine (w.readsTexts_iff hs).2 (.inr ⟨x.1, ?_, u, hu, ih hu⟩)
        rw [GraphStep.kind, ← Step.map_fst_reads]
        exact List.mem_map_of_mem hx

end Graph

namespace Builder

abbrev Held :=
  (c : Cardinality) × (α : DataType) × Handle c α

def Held.builder (h : Held) : Nat :=
  h.2.2.builder

def Held.step (h : Held) : StepId :=
  h.2.2.step

inductive Call (U : Type) where
  | trees
  | texts
  | filter {β : DataType} (accepts : Node → Bool)
      (map : Tree → Node → Carrier U β)
  | marked (marker : String) (shape : Shape)
  | select {α β : DataType} (input : Handle .many α)
      (map : Carrier U α → Carrier U β)
  | selectValue {α β : DataType} (input : Handle .one α)
      (map : Carrier U α → Carrier U β)
  | selectMany {α β : DataType} (input : Handle .many α)
      (map : Carrier U α → List (Carrier U β))
  | collect {α : DataType} (input : Handle .many α)
  | combine {α β : DataType} (left : Handle .many α) (right : Handle .one β)
  | output (kind : OutputKind) (sources : Handle .many .source)
  | nameStep {c : Cardinality} {α : DataType} (h : Handle c α) (name : String)

def Call.received : Call U → List Held
  | .trees | .texts | .filter _ _ | .marked _ _ => []
  | .select input _ => [⟨_, _, input⟩]
  | .selectValue input _ => [⟨_, _, input⟩]
  | .selectMany input _ => [⟨_, _, input⟩]
  | .collect input => [⟨_, _, input⟩]
  | .combine left right => [⟨_, _, left⟩, ⟨_, _, right⟩]
  | .output _ sources => [⟨_, _, sources⟩]
  | .nameStep h _ => [⟨_, _, h⟩]

variable {c : Cardinality} {α : DataType}

def held (r : Handle c α × Builder U) : Option Held × Builder U :=
  (some ⟨c, α, r.1⟩, r.2)

/-- The handle that a call issues, if any.  A marker that is none adds nothing. -/
def enact (b : Builder U) : Call U → Option Held × Builder U
  | .trees => held b.inputTrees
  | .texts => held b.inputTexts
  | .filter accepts map => held (b.filter accepts map)
  | .marked marker shape =>
      match b.markedDeclarations marker shape with
      | .ok r => held r
      | .error _ => (none, b)
  | .select input map => held (b.select input map)
  | .selectValue input map => held (b.selectValue input map)
  | .selectMany input map => held (b.selectMany input map)
  | .collect input => held (b.collect input)
  | .combine left right => held (b.combine left right)
  | .output kind sources => (none, b.output kind sources)
  | .nameStep h name => (none, b.nameStep h name)

/--
The calls that were made to a builder, the handles that it issued, and what it
has become.  Of its own handles a builder is given those that it issued before;
any handle of another builder may come at any time.
-/
inductive Course (id : Nat) : List (Call U) → List Held → Builder U → Prop
  | start : Course id [] [] { id := id }
  | next {calls issued b} (call : Call U) : Course id calls issued b →
      (∀ h ∈ call.received, h.builder = id → h ∈ issued) →
      Course id (calls ++ [call]) (issued ++ (b.enact call).1.toList)
        (b.enact call).2

/-! ## What a step is, apart from its name -/

def Holds (b : Builder U) (id : StepId) (step : Step U) : Prop :=
  ∃ s, b.step? id = some s ∧ s.step = step

variable {b : Builder U} {id : StepId} {step t : Step U}

private theorem holds_push :
    (b.push t).Holds id step ↔ b.Holds id step ∨ id = b.nextId ∧ step = t := by
  constructor
  · rintro ⟨s, hs, rfl⟩
    rcases Graph.step?_append b.outputs hs with hs | ⟨rfl, rfl⟩
    · exact .inl ⟨s, hs, rfl⟩
    · exact .inr ⟨rfl, rfl⟩
  · rintro (⟨s, hs, rfl⟩ | ⟨rfl, rfl⟩)
    · exact ⟨s, step?_push_of_some hs, rfl⟩
    · exact b.step?_push_self step

private theorem holds_note {h : Handle c α} :
    (b.note h).Holds id step ↔ b.Holds id step := by
  unfold note
  split <;> rfl

private theorem holds_nameStep {h : Handle c α} {name : String} :
    (b.nameStep h name).Holds id step ↔ b.Holds id step := by
  have hsame := Graph.sameButNames_modify (b.note h).steps h.step.index name
  have hback : Graph.SameButNames _ (b.note h).steps := Eq.symm hsame
  refine Iff.trans ?_ (holds_note (h := h))
  constructor
  · rintro ⟨s, hs, rfl⟩
    obtain ⟨u, hu, -, hstep, -⟩ := hback.step? hs
    exact ⟨u, hu, hstep⟩
  · rintro ⟨s, hs, rfl⟩
    obtain ⟨u, hu, -, hstep, -⟩ := hsame.step? hs
    exact ⟨u, hu, hstep⟩

private theorem holds_inputTrees (h : b.Holds id step) :
    b.inputTrees.2.Holds id step := by
  unfold inputTrees
  split
  · exact h
  · exact holds_push.2 (.inl h)

private theorem holds_inputTexts (h : b.Holds id step) :
    b.inputTexts.2.Holds id step := by
  unfold inputTexts
  split
  · exact h
  · exact holds_push.2 (.inl h)

private theorem holds_noted_push {h : Handle c α} (hb : b.Holds id step) :
    ((b.note h).push t).Holds id step :=
  holds_push.2 (.inl (holds_note.2 hb))

private theorem holds_enact (h : b.Holds id step) (call : Call U) :
    (b.enact call).2.Holds id step := by
  cases call with
  | trees => exact holds_inputTrees h
  | texts => exact holds_inputTexts h
  | filter => exact holds_push.2 (.inl (holds_inputTrees h))
  | marked marker shape =>
      rw [enact, markedDeclarations]
      cases Marker.ofName? marker with
      | error e => exact h
      | ok m => exact holds_push.2 (.inl (holds_inputTrees h))
  | combine => exact holds_noted_push (holds_note.2 h)
  | nameStep => exact holds_nameStep.2 h
  | _ => exact holds_noted_push h

/-! ## The steps that are shared -/

/-- The input steps are where the builder knows them to be, and nowhere else. -/
structure Shares (b : Builder U) : Prop where
  trees : ∀ id, b.trees = some id ↔ b.Holds id .trees
  texts : ∀ id, b.texts = some id ↔ b.Holds id .texts

namespace Shares

variable (shares : b.Shares)

include shares

theorem note (h : Handle c α) : (b.note h).Shares := by
  unfold Builder.note
  split
  · exact ⟨shares.trees, shares.texts⟩
  · exact shares

theorem push (htrees : Step.trees ≠ t) (htexts : Step.texts ≠ t) :
    (b.push t).Shares where
  trees id := by
    rw [holds_push, or_iff_left fun h => htrees h.2]
    exact shares.trees id
  texts id := by
    rw [holds_push, or_iff_left fun h => htexts h.2]
    exact shares.texts id

theorem inputTrees : b.inputTrees.2.Shares ∧
    b.inputTrees.2.Holds b.inputTrees.1.step .trees := by
  unfold Builder.inputTrees
  split
  · next id hid => exact ⟨shares, (shares.trees id).1 hid⟩
  · next hnone =>
    have hself : (b.push .trees).Holds b.nextId .trees :=
      holds_push.2 (.inr ⟨rfl, rfl⟩)
    refine ⟨⟨fun id => ⟨?_, fun hid => ?_⟩, fun id => ?_⟩, hself⟩
    · rintro ⟨⟩
      exact hself
    · rcases holds_push.1 hid with hid | ⟨rfl, -⟩
      · rw [(shares.trees id).2 hid] at hnone
        contradiction
      · rfl
    · refine (shares.texts id).trans (Iff.trans ?_ holds_push.symm)
      rw [or_iff_left fun h => by cases h.2]

theorem inputTexts : b.inputTexts.2.Shares ∧
    b.inputTexts.2.Holds b.inputTexts.1.step .texts := by
  unfold Builder.inputTexts
  split
  · next id hid => exact ⟨shares, (shares.texts id).1 hid⟩
  · next hnone =>
    have hself : (b.push .texts).Holds b.nextId .texts :=
      holds_push.2 (.inr ⟨rfl, rfl⟩)
    refine ⟨⟨fun id => ?_, fun id => ⟨?_, fun hid => ?_⟩⟩, hself⟩
    · refine (shares.trees id).trans (Iff.trans ?_ holds_push.symm)
      rw [or_iff_left fun h => by cases h.2]
    · rintro ⟨⟩
      exact hself
    · rcases holds_push.1 hid with hid | ⟨rfl, -⟩
      · rw [(shares.texts id).2 hid] at hnone
        contradiction
      · rfl

theorem nameStep (h : Handle c α) (name : String) :
    (b.nameStep h name).Shares where
  trees id := ((shares.note h).trees id).trans
    (holds_note.trans holds_nameStep.symm)
  texts id := ((shares.note h).texts id).trans
    (holds_note.trans holds_nameStep.symm)

private theorem enact (call : Call U) : (b.enact call).2.Shares := by
  cases call with
  | trees => exact shares.inputTrees.1
  | texts => exact shares.inputTexts.1
  | filter => exact shares.inputTrees.1.push (by simp) (by simp)
  | marked marker shape =>
      rw [Builder.enact, markedDeclarations]
      cases Marker.ofName? marker with
      | error e => exact shares
      | ok m => exact shares.inputTrees.1.push (by simp) (by simp)
  | combine left right => exact ((shares.note left).note right).push (by simp) (by simp)
  | output kind sources =>
      have hpush := (shares.note sources).push
        (t := .output sources.step kind) (by simp) (by simp)
      exact ⟨hpush.trees, hpush.texts⟩
  | nameStep h name => exact shares.nameStep h name
  | select input | selectValue input | selectMany input | collect input =>
      exact (shares.note input).push (by simp) (by simp)

end Shares

/-! ## What handles are good for -/

def Keeps (b : Builder U) (h : Held) : Prop :=
  ∃ step, b.Holds h.step step ∧ step.promise? = some (h.1, h.2.1)

private theorem Keeps.enact {h : Held} (keeps : b.Keeps h) (call : Call U) :
    (b.enact call).2.Keeps h := by
  obtain ⟨step, hstep, hpromise⟩ := keeps
  exact ⟨step, holds_enact hstep call, hpromise⟩

private theorem keeps_register {step : Step U}
    (hpromise : step.promise? = some (c, α)) :
    (b.register step c α).2.Keeps ⟨c, α, (b.register step c α).1⟩ :=
  ⟨step, holds_push.2 (.inr ⟨rfl, rfl⟩), hpromise⟩

private theorem Shares.keeps_enact (shares : b.Shares) (call : Call U) :
    ∀ h ∈ (b.enact call).1, (b.enact call).2.Keeps h := by
  cases call with
  | trees =>
      rintro _ ⟨⟩
      exact ⟨.trees, shares.inputTrees.2, rfl⟩
  | texts =>
      rintro _ ⟨⟩
      exact ⟨.texts, shares.inputTexts.2, rfl⟩
  | marked marker shape =>
      rw [Builder.enact, markedDeclarations]
      cases Marker.ofName? marker with
      | error e => rintro _ ⟨⟩
      | ok m =>
          rintro _ ⟨⟩
          exact keeps_register rfl
  | output | nameStep => rintro _ ⟨⟩
  | _ =>
      rintro _ ⟨⟩
      exact keeps_register rfl

/-! ## The foreign handle -/

def foreign? (id : Nat) (hs : List Held) : Option Held :=
  hs.find? fun h => h.builder ≠ id

private theorem foreign?_append (id : Nat) (hs hs' : List Held) :
    foreign? id (hs ++ hs') = (foreign? id hs).or (foreign? id hs') :=
  List.find?_append

private theorem foreign_note (h : Handle c α) :
    (b.note h).foreign =
      b.foreign.or ((foreign? b.id [⟨c, α, h⟩]).map Held.step) := by
  rw [foreign?, List.find?_singleton, note]
  by_cases hown : h.builder = b.id
  · simp [Held.builder, hown]
  · cases hforeign : b.foreign <;>
      simp [Held.builder, Held.step, hown, hforeign]

private theorem id_note (h : Handle c α) : (b.note h).id = b.id := by
  unfold note
  split <;> rfl

private theorem id_inputTrees : b.inputTrees.2.id = b.id := by
  unfold inputTrees
  split <;> rfl

private theorem id_inputTexts : b.inputTexts.2.id = b.id := by
  unfold inputTexts
  split <;> rfl

private theorem id_enact (call : Call U) : (b.enact call).2.id = b.id := by
  cases call with
  | trees => exact id_inputTrees
  | texts => exact id_inputTexts
  | filter => exact id_inputTrees
  | marked marker shape =>
      rw [enact, markedDeclarations]
      cases Marker.ofName? marker with
      | error e => rfl
      | ok m => exact id_inputTrees
  | combine left right => exact (id_note right).trans (id_note left)
  | select input | selectValue input | selectMany input | collect input
  | output _ input | nameStep input => exact id_note input

private theorem foreign_enact (call : Call U) :
    (b.enact call).2.foreign =
      b.foreign.or ((foreign? b.id call.received).map Held.step) := by
  have none_received : b.foreign =
      b.foreign.or ((foreign? b.id []).map Held.step) :=
    (Option.or_none).symm
  cases call with
  | trees => exact (foreign_inputTrees b).trans none_received
  | texts => exact (foreign_inputTexts b).trans none_received
  | filter => exact (foreign_inputTrees b).trans none_received
  | marked marker shape =>
      rw [enact, markedDeclarations]
      cases Marker.ofName? marker with
      | error e => exact none_received
      | ok m => exact (foreign_inputTrees b).trans none_received
  | combine left right =>
      have hboth := foreign_note (b := b.note left) right
      rw [foreign_note left, id_note, Option.or_assoc, ← Option.map_or,
        ← foreign?_append] at hboth
      exact hboth
  | select input | selectValue input | selectMany input | collect input
  | output _ input | nameStep input => exact foreign_note input

/-! ## What a course comes to -/

namespace Course

variable {builder : Nat} {calls : List (Call U)} {issued : List Held}
  (course : Course builder calls issued b)

include course

theorem id_eq : b.id = builder := by
  induction course with
  | start => rfl
  | next call _ _ ih => exact (id_enact call).trans ih

private theorem shares : b.Shares := by
  induction course with
  | start => exact ⟨by simp [Holds, Builder.step?, Graph.step?],
      by simp [Holds, Builder.step?, Graph.step?]⟩
  | next call _ _ ih => exact ih.enact call

theorem keeps : ∀ h ∈ issued, b.Keeps h := by
  induction course with
  | start => simp
  | next call course _ ih =>
      intro h hh
      rcases List.mem_append.1 hh with hh | hh
      · exact (ih h hh).enact call
      · exact course.shares.keeps_enact call h (Option.mem_toList.1 hh)

private theorem foreign_eq :
    b.foreign =
      (foreign? builder (calls.flatMap Call.received)).map Held.step := by
  induction course with
  | start => rfl
  | next call course _ ih =>
      rw [foreign_enact, ih, course.id_eq, List.flatMap_append, foreign?_append,
        Option.map_or]
      simp

theorem usable {call : Call U} {h : Handle c α}
    (hissued : ∀ x ∈ call.received, x.builder = builder → x ∈ issued)
    (hmem : ⟨c, α, h⟩ ∈ call.received) : b.Usable h := by
  intro hown
  obtain ⟨step, ⟨s, hs, rfl⟩, hpromise⟩ :=
    course.keeps _ (hissued _ hmem (hown.trans course.id_eq))
  exact ⟨s, hs, hpromise⟩

theorem registered : b.Registered := by
  induction course with
  | start => exact .start _
  | next call course hissued ih =>
      cases call with
      | trees => exact ih.inputTrees
      | texts => exact ih.inputTexts
      | filter accepts map => exact ih.filter accepts map
      | marked marker shape =>
          rw [enact]
          cases hmarked : markedDeclarations _ marker shape with
          | error e => exact ih
          | ok r => exact ih.marked hmarked
      | combine left right =>
          exact ih.combine left right
            (course.usable hissued (.head _))
            (course.usable hissued (.tail _ (.head _)))
      | select input map =>
          exact ih.select input map (course.usable hissued (.head _))
      | selectValue input map =>
          exact ih.selectValue input map (course.usable hissued (.head _))
      | selectMany input map =>
          exact ih.selectMany input map (course.usable hissued (.head _))
      | collect input =>
          exact ih.collect input (course.usable hissued (.head _))
      | output kind sources =>
          exact ih.output kind sources (course.usable hissued (.head _))
      | nameStep h name =>
          exact ih.nameStep h name (course.usable hissued (.head _))

private theorem finished (hforeign : b.foreign = none) :
    Graph.Finished ⟨b.steps, b.outputs⟩ := by
  have w := (course.registered.sound hforeign).wellFormed
  have shares := course.shares
  constructor
  case id_eq => exact w.id_eq
  case earlier =>
    rintro i j ⟨s, hs, x, hx, rfl⟩
    exact w.earlier_of_reads hs hx
  case no_output =>
    rintro i j ⟨s, hs, x, hx, rfl⟩
    obtain ⟨u, hu, hpromise⟩ := w.promised hs x hx
    refine ⟨u, hu, fun input kind hstep => ?_⟩
    rw [hstep] at hpromise
    contradiction
  case trees_once =>
    intro i j s u hs hu hi hj
    have at_i := (shares.trees i).2 ⟨s, hs, hi⟩
    have at_j := (shares.trees j).2 ⟨u, hu, hj⟩
    exact Option.some.inj (at_i.symm.trans at_j)
  case texts_once =>
    intro i j s u hs hu hi hj
    have at_i := (shares.texts i).2 ⟨s, hs, hi⟩
    have at_j := (shares.texts j).2 ⟨u, hu, hj⟩
    exact Option.some.inj (at_i.symm.trans at_j)
  case outputs_eq =>
    refine w.outputs_eq.trans (congrArg (List.filterMap · _) (funext fun s => ?_))
    rw [GraphStep.kind]
    cases s.step <;> rfl
  case readsTexts_iff => exact w.readsTexts_iff_reaches

end Course

/--
A graph comes out, and is well formed, unless a call was given a foreign handle.
In that case the complaint is about the first one, whatever came after it.
-/
theorem Course.finished_or_foreign {builder : Nat} {calls : List (Call U)}
    {issued : List Held} (course : Course builder calls issued b)
    (name : String) {registration : Builder U → Except GraphError (Builder U)}
    (h : registration { id := builder } = .ok b) :
    (∀ g, Generator.build name builder registration = .ok g →
        g.graph.Finished) ∧
      (∀ x, foreign? builder (calls.flatMap Call.received) = some x →
        Generator.build name builder registration =
          .error (.foreignHandle x.step)) ∧
      (foreign? builder (calls.flatMap Call.received) = none →
        ∃ g, Generator.build name builder registration = .ok g) := by
  have hbuild : Generator.build name builder registration =
      b.toGenerator name := by
    rw [Generator.build, h]
    rfl
  rw [hbuild, toGenerator, finish, course.foreign_eq]
  cases hforeign : foreign? builder (calls.flatMap Call.received) with
  | some x =>
      refine ⟨?_, ?_, ?_⟩
      · rintro _ ⟨⟩
      · rintro _ ⟨⟩
        rfl
      · rintro ⟨⟩
  | none =>
      refine ⟨?_, ?_, fun _ => ⟨_, rfl⟩⟩
      · rintro _ ⟨⟩
        exact course.finished (course.foreign_eq.trans (by rw [hforeign]; rfl))
      · rintro _ ⟨⟩

end Builder

/-! ## A builder that borrows handles -/

namespace Lister

open Builder

def listTrees : Call Unit :=
  @Call.select Unit .tree .source trees.1 fun (t : Tree) => ⟨t.path, ""⟩

def listTexts : Call Unit :=
  @Call.select Unit .text .source texts.1
    fun (t : TextFile) => ⟨t.path, t.content⟩

def calls : List (Call Unit) :=
  [.trees, listTrees, .texts, listTexts, .output .source treeSources.1,
    .output .implementation textSources.1]

private theorem course : ∃ issued, Course 0 calls issued builder := by
  have h := (((@Course.start Unit 0).next .trees (by decide)).next listTrees
    (by decide)).next .texts (by decide)
  exact ⟨_, ((h.next listTexts (by decide)).next
    (.output .source treeSources.1) (by decide)).next
      (.output .implementation textSources.1) (by decide)⟩

def borrowed : List (Call Unit) :=
  [.trees, listTrees, .nameStep textSources.1 "texts",
    .output .source ⟨1, ⟨1⟩⟩]

def enactAll (calls : List (Call Unit)) (b : Builder Unit) : Builder Unit :=
  calls.foldl (fun b call => (b.enact call).2) b

private theorem course_borrowed :
    ∃ issued, Course 1 borrowed issued (enactAll borrowed { id := 1 }) :=
  ⟨_, ((((@Course.start Unit 1).next .trees (by decide)).next listTrees
    (by decide)).next (.nameStep textSources.1 "texts") (by decide)).next
      (.output .source ⟨1, ⟨1⟩⟩) (by decide)⟩

def registration (calls : List (Call Unit)) (b : Builder Unit) :
    Except GraphError (Builder Unit) :=
  .ok (enactAll calls b)

theorem build_calls :
    (∃ g, Generator.build "lister" 0 (registration calls) = .ok g ∧
        g.graph.Finished) ∧
      Generator.build "borrower" 1 (registration borrowed) =
        .error (.foreignHandle trees.1.step) := by
  obtain ⟨_, hcourse⟩ := course
  obtain ⟨_, hborrowed⟩ := course_borrowed
  obtain ⟨hfinished, -, hbuilt⟩ := hcourse.finished_or_foreign "lister"
    (show registration calls { id := 0 } = .ok builder from rfl)
  obtain ⟨-, hforeign, -⟩ := hborrowed.finished_or_foreign "borrower"
    (show registration borrowed { id := 1 } = .ok _ from rfl)
  obtain ⟨g, hg⟩ := hbuilt rfl
  exact ⟨⟨g, hg, hfinished g hg⟩, hforeign _ rfl⟩

end Lister

end Regen
