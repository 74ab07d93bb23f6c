import Regen.Proofs.Graph.WellFormed

/-!
# Registrations

A builder in the middle of its work: any registrations, in any order, with
handles that it issued or that some other builder issued.  The steps that stand
there are well formed for as long as no foreign handle has come in.
-/

namespace Regen

open Syntax

variable {U : Type}

namespace Builder

def step? (b : Builder U) (id : StepId) : Option (GraphStep U) :=
  Graph.step? ⟨b.steps, b.outputs⟩ id

/-- A handle that the builder issued, or any one of another builder. -/
def Usable (b : Builder U) {c : Cardinality} {α : DataType} (h : Handle c α) :
    Prop :=
  h.builder = b.id →
    ∃ s, b.step? h.step = some s ∧ s.step.promise? = some (c, α)

/-- What a client can make of a builder. -/
inductive Registered : Builder U → Prop
  | start (id : Nat) : Registered { id := id }
  | inputTrees {b} : Registered b → Registered b.inputTrees.2
  | inputTexts {b} : Registered b → Registered b.inputTexts.2
  | filter {b} {β : DataType} (accepts : Node → Bool)
      (map : Tree → Node → Carrier U β) :
      Registered b → Registered (b.filter accepts map).2
  | marked {b b'} {marker : String} {shape : Shape}
      {h : Handle .many .marked} :
      Registered b → b.markedDeclarations marker shape = .ok (h, b') →
      Registered b'
  | select {b} {α β : DataType} (input : Handle .many α)
      (map : Carrier U α → Carrier U β) :
      Registered b → b.Usable input → Registered (b.select input map).2
  | selectValue {b} {α β : DataType} (input : Handle .one α)
      (map : Carrier U α → Carrier U β) :
      Registered b → b.Usable input → Registered (b.selectValue input map).2
  | selectMany {b} {α β : DataType} (input : Handle .many α)
      (map : Carrier U α → List (Carrier U β)) :
      Registered b → b.Usable input → Registered (b.selectMany input map).2
  | collect {b} {α : DataType} (input : Handle .many α) :
      Registered b → b.Usable input → Registered (b.collect input).2
  | combine {b} {α β : DataType} (left : Handle .many α)
      (right : Handle .one β) :
      Registered b → b.Usable left → b.Usable right →
      Registered (b.combine left right).2
  | output {b} (kind : OutputKind) (sources : Handle .many .source) :
      Registered b → b.Usable sources → Registered (b.output kind sources)
  | nameStep {b} {c : Cardinality} {α : DataType} (h : Handle c α)
      (name : String) :
      Registered b → b.Usable h → Registered (b.nameStep h name)

variable {c : Cardinality} {α : DataType}

/-- A builder whose steps so far form a graph, with the shared steps known. -/
structure Sound (b : Builder U) : Prop where
  wellFormed : Graph.WellFormed ⟨b.steps, b.outputs⟩
  trees : ∀ id, b.trees = some id → ∃ s, b.step? id = some s ∧ s.step = .trees
  texts : ∀ id, b.texts = some id → ∃ s, b.step? id = some s ∧ s.step = .texts

theorem readsTexts_iff {b : Builder U} {kind : StepKind} :
    b.readsTexts kind = true ↔ kind = .texts ∨
      ∃ input ∈ kind.inputs, ∃ s, b.step? input = some s ∧
        s.readsTexts = true := by
  simp only [readsTexts, Bool.or_eq_true, beq_iff_eq, List.any_eq_true, step?,
    Graph.step?]
  refine or_congr_right (exists_congr fun input => and_congr_right fun _ => ?_)
  cases b.steps[input.index]? <;> simp

theorem step?_push_of_some {b : Builder U} {step : Step U} {id : StepId}
    {s : GraphStep U} (h : b.step? id = some s) :
    (b.push step).step? id = some s :=
  Graph.step?_append_of_some h

theorem step?_push_self (b : Builder U) (step : Step U) :
    ∃ s, (b.push step).step? b.nextId = some s ∧ s.step = step :=
  ⟨⟨b.nextId, step, none, b.readsTexts step.kind⟩,
    by simp [Builder.step?, Graph.step?, push, nextId], rfl⟩

theorem Sound.push {b : Builder U} (h : b.Sound) (step : Step U)
    (hkind : step.kind.outputKind? = none)
    (hpromised : ∀ x ∈ step.reads, ∃ s, b.step? x.1 = some s ∧
      s.step.promise? = some x.2)
    (hwalked : ∀ input, step.walked? = some input →
      ∃ s, b.step? input = some s ∧ s.step = .trees) :
    (b.push step).Sound where
  wellFormed := by
    have w := h.wellFormed.append
      ⟨b.nextId, step, none, b.readsTexts step.kind⟩ rfl hpromised hwalked
      readsTexts_iff
    simpa [GraphStep.kind, hkind, Builder.push] using w
  trees id hid := by
    obtain ⟨s, hs, htrees⟩ := h.trees id hid
    exact ⟨s, step?_push_of_some hs, htrees⟩
  texts id hid := by
    obtain ⟨s, hs, htexts⟩ := h.texts id hid
    exact ⟨s, step?_push_of_some hs, htexts⟩

private theorem foreign_note_eq_none {b : Builder U} {h : Handle c α}
    (hnote : (b.note h).foreign = none) :
    b.note h = b ∧ b.foreign = none ∧ h.builder = b.id := by
  unfold note at hnote ⊢
  split at hnote
  · simp at hnote
  · next hown =>
    refine ⟨if_neg hown, hnote, ?_⟩
    simpa [hnote] using hown

private theorem inputTrees_sound {b : Builder U} (h : b.Sound) :
    b.inputTrees.2.Sound ∧
      ∃ s, b.inputTrees.2.step? b.inputTrees.1.step = some s ∧
        s.step = .trees := by
  unfold inputTrees
  split
  · next id hid => exact ⟨h, h.trees id hid⟩
  · have hpush := h.push .trees rfl (by simp [Step.reads])
      (by simp [Step.walked?])
    obtain ⟨s, hs, htrees⟩ := b.step?_push_self .trees
    refine ⟨⟨hpush.wellFormed, ?_, hpush.texts⟩, s, hs, htrees⟩
    rintro id ⟨⟩
    exact ⟨s, hs, htrees⟩

private theorem inputTexts_sound {b : Builder U} (h : b.Sound) :
    b.inputTexts.2.Sound := by
  unfold inputTexts
  split
  · exact h
  · have hpush := h.push .texts rfl (by simp [Step.reads])
      (by simp [Step.walked?])
    obtain ⟨s, hs, htexts⟩ := b.step?_push_self .texts
    refine ⟨hpush.wellFormed, hpush.trees, ?_⟩
    rintro id ⟨⟩
    exact ⟨s, hs, htexts⟩

theorem foreign_inputTrees (b : Builder U) :
    b.inputTrees.2.foreign = b.foreign := by
  unfold inputTrees
  split <;> rfl

theorem foreign_inputTexts (b : Builder U) :
    b.inputTexts.2.foreign = b.foreign := by
  unfold inputTexts
  split <;> rfl

private theorem Sound.push_walker {b : Builder U} (h : b.Sound) {step : Step U}
    (hkind : step.kind.outputKind? = none)
    (hreads : step.reads = [(b.inputTrees.1.step, .many, .tree)])
    (hwalked : step.walked? = some b.inputTrees.1.step) :
    (b.inputTrees.2.push step).Sound := by
  obtain ⟨hb, s, hs, htrees⟩ := inputTrees_sound h
  refine hb.push step hkind ?_ ?_
  · rw [hreads]
    rintro x (_ | ⟨_, ⟨⟩⟩)
    exact ⟨s, hs, htrees ▸ rfl⟩
  · rw [hwalked]
    rintro input ⟨⟩
    exact ⟨s, hs, htrees⟩

private theorem Sound.push_reader {b : Builder U} (ih : b.foreign = none → b.Sound)
    {input : Handle c α} (husable : b.Usable input) {step : Step U}
    (hforeign : (b.note input).foreign = none)
    (hkind : step.kind.outputKind? = none)
    (hreads : step.reads = [(input.step, c, α)])
    (hwalked : step.walked? = none) : ((b.note input).push step).Sound := by
  obtain ⟨hsame, hb, hown⟩ := foreign_note_eq_none hforeign
  rw [hsame]
  refine (ih hb).push step hkind ?_ ?_
  · rw [hreads]
    rintro x (_ | ⟨_, ⟨⟩⟩)
    exact husable hown
  · rw [hwalked]
    rintro input ⟨⟩

private theorem Sound.push_output {b : Builder U} (h : b.Sound) {sources : StepId}
    {kind : OutputKind}
    (hsources : ∃ s, b.step? sources = some s ∧
      s.step.promise? = some (.many, .source)) :
    Sound { b.push (.output sources kind) with
      outputs := b.outputs ++ [(b.nextId, kind)] } where
  wellFormed := by
    refine h.wellFormed.append
      ⟨b.nextId, .output sources kind, none, b.readsTexts (.output sources kind)⟩
      rfl ?_ nofun (@readsTexts_iff U b (.output sources kind))
    rintro x (_ | ⟨_, ⟨⟩⟩)
    exact hsources
  trees id hid := by
    obtain ⟨s, hs, htrees⟩ := h.trees id hid
    exact ⟨s, Graph.step?_append_of_some hs, htrees⟩
  texts id hid := by
    obtain ⟨s, hs, htexts⟩ := h.texts id hid
    exact ⟨s, Graph.step?_append_of_some hs, htexts⟩

theorem Sound.nameStep {b : Builder U} (h : b.Sound) (id : StepId)
    (name : String) :
    Sound { b with
      steps := b.steps.modify id.index fun s => { s with name := some name } } := by
  have hsame := Graph.sameButNames_modify b.steps id.index name
  refine ⟨h.wellFormed.rename hsame, ?_, ?_⟩
  · intro shared hshared
    obtain ⟨s, hs, htrees⟩ := h.trees shared hshared
    obtain ⟨s', hs', -, hstep, -⟩ := hsame.step? hs
    exact ⟨s', hs', hstep.trans htrees⟩
  · intro shared hshared
    obtain ⟨s, hs, htexts⟩ := h.texts shared hshared
    obtain ⟨s', hs', -, hstep, -⟩ := hsame.step? hs
    exact ⟨s', hs', hstep.trans htexts⟩

theorem Registered.sound {b : Builder U} (h : Registered b)
    (hforeign : b.foreign = none) : b.Sound := by
  induction h with
  | start id => exact ⟨.empty, nofun, nofun⟩
  | @inputTrees b _ ih =>
      rw [foreign_inputTrees] at hforeign
      exact (inputTrees_sound (ih hforeign)).1
  | @inputTexts b _ ih =>
      rw [foreign_inputTexts] at hforeign
      exact inputTexts_sound (ih hforeign)
  | @filter b β accepts map _ ih =>
      have hb : b.foreign = none := by
        rw [← foreign_inputTrees]
        exact hforeign
      exact (ih hb).push_walker rfl rfl rfl
  | @marked b b' marker shape h _ hok ih =>
      rw [markedDeclarations] at hok
      cases hmarker : Marker.ofName? marker with
      | error e =>
          rw [hmarker] at hok
          contradiction
      | ok m =>
          rw [hmarker] at hok
          obtain ⟨⟩ := hok
          have hb : b.foreign = none := by
            rw [← foreign_inputTrees]
            exact hforeign
          exact (ih hb).push_walker rfl rfl rfl
  | select input map _ husable ih =>
      exact Sound.push_reader ih husable hforeign rfl rfl rfl
  | selectValue input map _ husable ih =>
      exact Sound.push_reader ih husable hforeign rfl rfl rfl
  | selectMany input map _ husable ih =>
      exact Sound.push_reader ih husable hforeign rfl rfl rfl
  | collect input _ husable ih =>
      exact Sound.push_reader ih husable hforeign rfl rfl rfl
  | combine left right _ hleft hright ih =>
      obtain ⟨hsame', hb', hown'⟩ := foreign_note_eq_none (h := right) hforeign
      obtain ⟨hsame, hb, hown⟩ := foreign_note_eq_none hb'
      rw [hsame] at hown' hsame'
      change (((_ : Builder U).note left).note right |>.push _).Sound
      rw [hsame, hsame']
      refine (ih hb).push _ rfl ?_ nofun
      rintro x (_ | ⟨_, _ | ⟨_, ⟨⟩⟩⟩)
      · exact hleft hown
      · exact hright hown'
  | @output b kind sources _ husable ih =>
      obtain ⟨hsame, hb, hown⟩ := foreign_note_eq_none (h := sources) hforeign
      rw [Builder.output, hsame]
      exact (ih hb).push_output (husable hown)
  | @nameStep b c α h name _ husable ih =>
      obtain ⟨hsame, hb, -⟩ := foreign_note_eq_none (h := h) hforeign
      rw [Builder.nameStep, hsame]
      exact (ih hb).nameStep h.step name

end Builder

/-- A generator that some sequence of registrations has built. -/
def Generator.Built (g : Generator U) : Prop :=
  ∃ b : Builder U, b.Registered ∧ b.toGenerator g.name = .ok g

theorem Generator.Built.wellFormed {g : Generator U} (h : g.Built) :
    g.graph.WellFormed := by
  obtain ⟨b, hb, hg⟩ := h
  rw [Builder.toGenerator, Builder.finish] at hg
  cases hforeign : b.foreign with
  | some step =>
      rw [hforeign] at hg
      contradiction
  | none =>
      rw [hforeign] at hg
      have hgraph : ⟨b.steps, b.outputs⟩ = g.graph :=
        congrArg Generator.graph (Except.ok.inj hg)
      exact hgraph ▸ (hb.sound hforeign).wellFormed

/-! ## A generator that lists the files -/

namespace Lister

def trees : Handle .many .tree × Builder Unit :=
  Builder.inputTrees { id := 0 }

def treeSources : Handle .many .source × Builder Unit :=
  @Builder.select Unit .tree .source trees.2 trees.1
    fun (t : Tree) => ⟨t.path, ""⟩

def texts : Handle .many .text × Builder Unit :=
  treeSources.2.inputTexts

def textSources : Handle .many .source × Builder Unit :=
  @Builder.select Unit .text .source texts.2 texts.1
    fun (t : TextFile) => ⟨t.path, t.content⟩

def builder : Builder Unit :=
  (textSources.2.output .source treeSources.1).output .implementation
    textSources.1

/-- One source for each tree, then one for each text as implementation. -/
def generator : Generator Unit where
  name := "lister"
  graph := ⟨builder.steps, builder.outputs⟩

theorem registered : builder.Registered := by
  have htrees : Builder.Registered trees.2 := .inputTrees (.start 0)
  have htreeSources : Builder.Registered treeSources.2 :=
    .select _ _ htrees fun _ => ⟨_, rfl, rfl⟩
  have htexts : Builder.Registered texts.2 := .inputTexts htreeSources
  have htextSources : Builder.Registered textSources.2 :=
    .select _ _ htexts fun _ => ⟨_, rfl, rfl⟩
  have houtput := htextSources.output .source treeSources.1
    fun _ => ⟨_, rfl, rfl⟩
  exact houtput.output .implementation textSources.1 fun _ => ⟨_, rfl, rfl⟩

theorem built : generator.Built :=
  ⟨builder, registered, rfl⟩

end Lister

end Regen
