import Mathlib.Data.List.Induction
import Regen.Proofs.Alike
import Regen.Proofs.Session.Paths

/-!
# Edits, path by path

Texts that differ in their paths are so many cells, each of them empty or
holding one text, and an edit is about the cell at its own path: it fits what
the cell holds, and then leaves something else there, or it does nothing.  To
take in a list of edits is to take in the edits of each path on their own.
-/

namespace Regen

private theorem mem_of_mem_replaceFirst {α : Type} {here : α → Bool} {new a : α}
    {as : List α} (h : a ∈ replaceFirst here new as) : a = new ∨ a ∈ as := by
  induction as with
  | nil => contradiction
  | cons b as ih =>
      unfold replaceFirst at h
      split at h
      · exact (List.mem_cons.1 h).imp_right (List.mem_cons_of_mem b)
      · rcases List.mem_cons.1 h with rfl | h
        · exact .inr List.mem_cons_self
        · exact (ih h).imp_right (List.mem_cons_of_mem b)

namespace TextEdit

def mentions : TextEdit → List TextFile
  | .add text | .remove text => [text]
  | .change old new => [old, new]

/-- The edit can take effect on what the cell at its path holds. -/
def Fits (held : Option TextFile) : TextEdit → Prop
  | .add _ => held = none
  | .remove _ => held ≠ none
  | .change old new => old.path = new.path ∧ held = some old

instance (held : Option TextFile) : (edit : TextEdit) → Decidable (edit.Fits held)
  | .add _ => inferInstanceAs (Decidable (held = none))
  | .remove _ => inferInstanceAs (Decidable (held ≠ none))
  | .change old new =>
      inferInstanceAs (Decidable (old.path = new.path ∧ held = some old))

def leaves : TextEdit → Option TextFile
  | .add text => some text
  | .remove _ => none
  | .change _ new => some new

def misfit (held : Option TextFile) : TextEdit → EditFailure
  | .add text => .addedExisting text.path
  | .remove text => .removedUnknown text.path
  | .change old new =>
      if old.path ≠ new.path then .pathMismatch old.path new.path
      else if held = none then .changedUnknown old.path
      else .staleChange old.path

/-- What a cell holds after some edits of its path, taken in one by one. -/
def heldAfter (held : Option TextFile) (edits : List TextEdit) :
    Option TextFile :=
  edits.foldl (fun held edit => if edit.Fits held then edit.leaves else held)
    held

def cellAfter (texts : List TextFile) (edits : List TextEdit) (path : String) :
    Option TextFile :=
  heldAfter (textAt? texts path) (edits.filter (·.path == path))

def AllFit (texts : List TextFile) (edits : List TextEdit) : Prop :=
  ∀ before edit after, edits = before ++ edit :: after →
    edit.Fits (cellAfter texts before edit.path)

/-! ## One edit -/

private theorem textAt?_append (texts : List TextFile) (t : TextFile) (path : String) :
    textAt? (texts ++ [t]) path =
      (textAt? texts path).or (if path = t.path then some t else none) := by
  rw [textAt?, List.find?_append, textAt?, List.find?_singleton]
  by_cases h : path = t.path
  · simp [h]
  · simp [h, Ne.symm h]

private theorem textAt?_erase {texts : List TextFile} (apart : PathsApart texts)
    (erased path : String) :
    textAt? (texts.eraseP (·.path == erased)) path =
      if path = erased then none else textAt? texts path := by
  induction texts with
  | nil => simp [textAt?]
  | cons t texts ih =>
      obtain ⟨hfirst, hrest⟩ := List.nodup_cons.1 apart
      rw [List.eraseP_cons]
      by_cases ht : t.path = erased
      · subst ht
        have hgone : textAt? texts t.path = none := by
          rw [textAt?, List.find?_eq_none]
          intro u hu heq
          exact hfirst (List.mem_map.2 ⟨u, hu, eq_of_beq heq⟩)
        rw [beq_self_eq_true, cond_true]
        by_cases hpath : path = t.path
        · rw [if_pos hpath, hpath, hgone]
        · rw [if_neg hpath, textAt?, textAt?,
            List.find?_cons_of_neg (by simpa using Ne.symm hpath)]
      · have hb : (t.path == erased) = false := by simpa using ht
        rw [hb, cond_false, textAt?, List.find?_cons, textAt?, List.find?_cons]
        cases hpath : t.path == path with
        | true =>
            rw [if_neg (by rw [← eq_of_beq hpath]; exact ht)]
        | false => exact ih hrest

private theorem textAt?_replace (texts : List TextFile) (new : TextFile)
    (path : String) :
    textAt? (replaceFirst (·.path == new.path) new texts) path =
      if path = new.path then (textAt? texts path).map fun _ => new
      else textAt? texts path := by
  induction texts with
  | nil => simp [textAt?, replaceFirst]
  | cons t texts ih =>
      unfold replaceFirst
      by_cases ht : t.path = new.path
      · by_cases hpath : path = new.path
        · simp [textAt?, ht, hpath]
        · simp [textAt?, ht, hpath, Ne.symm hpath]
      · by_cases hpath : t.path = path
        · subst hpath
          simp [textAt?, ht]
        · have hb : (t.path == path) = false := by simpa using hpath
          have hb' : (t.path == new.path) = false := by simpa using ht
          rw [hb', if_neg (by simp), textAt?, List.find?_cons, hb, textAt?,
            List.find?_cons, hb]
          exact ih

private theorem path_of_textAt? {texts : List TextFile} {path : String} {t : TextFile}
    (h : textAt? texts path = some t) : t ∈ texts ∧ t.path = path :=
  ⟨List.mem_of_find?_eq_some h, by simpa using List.find?_some h⟩

variable {known : TextFile → Prop} {texts : List TextFile}

private theorem apply_cases (free : CollisionFree known) (apart : PathsApart texts)
    (htexts : ∀ t ∈ texts, known t) {edit : TextEdit}
    (hedit : ∀ t ∈ edit.mentions, known t) :
    (∃ texts', edit.apply texts = .ok texts' ∧
      edit.Fits (textAt? texts edit.path) ∧ (∀ t ∈ texts', known t) ∧
      ∀ path, textAt? texts' path =
        if path = edit.path then edit.leaves else textAt? texts path) ∨
    (edit.apply texts = .error (edit.misfit (textAt? texts edit.path)) ∧
      ¬ edit.Fits (textAt? texts edit.path)) := by
  cases edit with
  | add t =>
      cases hheld : textAt? texts t.path with
      | some held =>
          refine .inr ⟨?_, ?_⟩
          · rw [apply, hheld]
            rfl
          · rw [path, hheld]
            simp [Fits]
      | none =>
          refine .inl ⟨texts ++ [t], ?_, hheld, ?_, fun p => ?_⟩
          · rw [apply, hheld]
          · intro u hu
            rcases List.mem_append.1 hu with hu | hu
            · exact htexts u hu
            · exact hedit u hu
          · rw [textAt?_append]
            split
            · next hp => rw [hp, hheld]; simp [path, leaves]
            · next hp => simp [path, hp]
  | remove t =>
      cases hheld : textAt? texts t.path with
      | none =>
          refine .inr ⟨?_, ?_⟩
          · rw [apply, hheld]
            rfl
          · rw [path, hheld]
            simp [Fits]
      | some held =>
          refine .inl ⟨texts.eraseP (·.path == t.path), ?_, ?_, ?_, fun p => ?_⟩
          · rw [apply, hheld]
          · rw [path, hheld]
            simp [Fits]
          · exact fun u hu => htexts u (List.mem_of_mem_eraseP hu)
          · exact textAt?_erase apart t.path p
  | change old new =>
      by_cases hpaths : old.path = new.path
      · cases hheld : textAt? texts old.path with
        | none =>
            refine .inr ⟨?_, ?_⟩
            · rw [apply, if_neg (not_not.2 hpaths), hheld, path, hheld, misfit,
                if_neg (not_not.2 hpaths), if_pos rfl]
            · rw [path, hheld]
              simp [Fits]
        | some held =>
            obtain ⟨hmem, hpath⟩ := path_of_textAt? hheld
            by_cases hsame : held.same old = true
            · -- The digest tells the known texts apart, so this is the old one.
              obtain ⟨rfl, -⟩ := (Decides.text free).of_same
                ⟨rfl, htexts held hmem⟩ ⟨rfl, hedit old (by simp [mentions])⟩ hsame
              refine .inl ⟨replaceFirst (·.path == held.path) new texts,
                ?_, ?_, fun u hu => ?_, fun p => ?_⟩
              · rw [apply, if_neg (not_not.2 hpaths), hheld]
                exact if_pos hsame
              · rw [path, hheld]
                exact ⟨hpaths, rfl⟩
              · rcases mem_of_mem_replaceFirst hu with rfl | hu
                · exact hedit u (by simp [mentions])
                · exact htexts u hu
              · rw [hpaths, textAt?_replace, path, hpaths]
                split
                · next hp => rw [hp, ← hpaths, hheld]; rfl
                · rfl
            · refine .inr ⟨?_, ?_⟩
              · rw [apply, if_neg (not_not.2 hpaths), hheld, path, hheld, misfit,
                  if_neg (not_not.2 hpaths), if_neg (by simp)]
                exact if_neg hsame
              · rw [path, hheld]
                rintro ⟨-, heq⟩
                obtain rfl := Option.some.inj heq
                exact hsame (TextFile.same_refl held)
      · refine .inr ⟨?_, fun hfits => hpaths hfits.1⟩
        rw [apply, if_pos hpaths, misfit, if_pos hpaths]

/-! ## A list of edits -/

private theorem cellAfter_cons (texts : List TextFile) (edit : TextEdit)
    (edits : List TextEdit) (path : String) :
    cellAfter texts (edit :: edits) path =
      heldAfter
        (if path = edit.path ∧ edit.Fits (textAt? texts edit.path)
          then edit.leaves else textAt? texts path)
        (edits.filter (·.path == path)) := by
  by_cases hpath : edit.path = path
  · subst hpath
    rw [cellAfter, List.filter_cons_of_pos (by simp), heldAfter,
      List.foldl_cons]
    simp only [true_and]
    rfl
  · rw [cellAfter, List.filter_cons_of_neg (by simpa using hpath),
      if_neg fun h => hpath h.1.symm]

private theorem cellAfter_of_fits {texts' : List TextFile} {edit : TextEdit}
    (hfits : edit.Fits (textAt? texts edit.path))
    (hcells : ∀ path, textAt? texts' path =
      if path = edit.path then edit.leaves else textAt? texts path)
    (edits : List TextEdit) (path : String) :
    cellAfter texts (edit :: edits) path = cellAfter texts' edits path := by
  rw [cellAfter_cons, cellAfter, hcells]
  simp only [hfits, and_true]

private theorem cellAfter_of_not_fits {edit : TextEdit}
    (hmisfit : ¬ edit.Fits (textAt? texts edit.path))
    (edits : List TextEdit) (path : String) :
    cellAfter texts (edit :: edits) path = cellAfter texts edits path := by
  rw [cellAfter_cons, if_neg fun h => hmisfit h.2, cellAfter]

variable {edits : List TextEdit}

/-- Each cell holds what the edits of its own path leave there. -/
private theorem textAt?_applyFitting (free : CollisionFree known)
    (apart : PathsApart texts) (htexts : ∀ t ∈ texts, known t)
    (hedits : ∀ edit ∈ edits, ∀ t ∈ edit.mentions, known t) (path : String) :
    textAt? (applyFitting texts edits).1 path = cellAfter texts edits path := by
  induction edits generalizing texts with
  | nil => rfl
  | cons edit edits ih =>
      obtain ⟨hedit, hrest⟩ := List.forall_mem_cons.1 hedits
      rcases apply_cases free apart htexts hedit with
        ⟨texts', hok, hfits, hknown, hcells⟩ | ⟨herror, hmisfit⟩
      · rw [applyFitting, hok, cellAfter_of_fits hfits hcells]
        exact ih (apart.apply hok) hknown hrest
      · rw [applyFitting, herror, cellAfter_of_not_fits hmisfit]
        exact ih apart htexts hrest

private theorem known_applyFitting (free : CollisionFree known)
    (apart : PathsApart texts) (htexts : ∀ t ∈ texts, known t)
    (hedits : ∀ edit ∈ edits, ∀ t ∈ edit.mentions, known t) :
    ∀ t ∈ (applyFitting texts edits).1, known t := by
  induction edits generalizing texts with
  | nil => exact htexts
  | cons edit edits ih =>
      obtain ⟨hedit, hrest⟩ := List.forall_mem_cons.1 hedits
      rcases apply_cases free apart htexts hedit with
        ⟨texts', hok, -, hknown, -⟩ | ⟨herror, -⟩
      · rw [applyFitting, hok]
        exact ih (apart.apply hok) hknown hrest
      · rw [applyFitting, herror]
        exact ih apart htexts hrest

private theorem allFit_cons {texts' : List TextFile} {edit : TextEdit}
    (hfits : edit.Fits (textAt? texts edit.path))
    (hcells : ∀ path, textAt? texts' path =
      if path = edit.path then edit.leaves else textAt? texts path) :
    AllFit texts (edit :: edits) ↔ AllFit texts' edits := by
  constructor
  · rintro h before next after rfl
    rw [← cellAfter_of_fits hfits hcells]
    exact h (edit :: before) next after rfl
  · intro h before next after heq
    cases before with
    | nil =>
        obtain ⟨rfl, -⟩ := List.cons.inj heq
        exact hfits
    | cons first before =>
        obtain ⟨rfl, rfl⟩ := List.cons.inj heq
        rw [cellAfter_of_fits hfits hcells]
        exact h before next after rfl

private theorem applyAll?_append (texts : List TextFile) (first second : List TextEdit) :
    applyAll? texts (first ++ second) =
      (applyAll? texts first).bind (applyAll? · second) := by
  induction first generalizing texts with
  | nil => rfl
  | cons edit first ih =>
      rw [List.cons_append, applyAll?, applyAll?]
      cases edit.apply texts with
      | ok texts' => exact ih texts'
      | error failure => rfl

private theorem applyAll?_of_allFit (free : CollisionFree known)
    (apart : PathsApart texts) (htexts : ∀ t ∈ texts, known t)
    (hedits : ∀ edit ∈ edits, ∀ t ∈ edit.mentions, known t)
    (h : AllFit texts edits) :
    applyAll? texts edits = .ok (applyFitting texts edits).1 := by
  induction edits generalizing texts with
  | nil => rfl
  | cons edit edits ih =>
      obtain ⟨hedit, hrest⟩ := List.forall_mem_cons.1 hedits
      rcases apply_cases free apart htexts hedit with
        ⟨texts', hok, hfits, hknown, hcells⟩ | ⟨-, hmisfit⟩
      · rw [applyAll?, applyFitting, hok]
        exact ih (apart.apply hok) hknown hrest ((allFit_cons hfits hcells).1 h)
      · exact absurd (h [] edit edits rfl) hmisfit

private theorem applyAll?_of_misfit (free : CollisionFree known)
    (apart : PathsApart texts) (htexts : ∀ t ∈ texts, known t)
    {before after : List TextEdit} {edit : TextEdit}
    (hedits : ∀ e ∈ before ++ edit :: after, ∀ t ∈ e.mentions, known t)
    (hbefore : AllFit texts before)
    (hmisfit : ¬ edit.Fits (cellAfter texts before edit.path)) :
    applyAll? texts (before ++ edit :: after) =
      .error (edit.misfit (cellAfter texts before edit.path)) := by
  rw [List.forall_mem_append, List.forall_mem_cons] at hedits
  obtain ⟨hknown, hedit, -⟩ := hedits
  rw [applyAll?_append, applyAll?_of_allFit free apart htexts hknown hbefore]
  rw [← textAt?_applyFitting free apart htexts hknown] at hmisfit ⊢
  rcases apply_cases free (apart.applyFitting before)
      (known_applyFitting free apart htexts hknown) hedit with
    ⟨-, -, hfits, -⟩ | ⟨herror, -⟩
  · exact absurd hfits hmisfit
  · rw [Except.bind, applyAll?, herror]

private theorem allFit_or (texts : List TextFile) (edits : List TextEdit) :
    AllFit texts edits ∨
      ∃ before edit after, edits = before ++ edit :: after ∧
        AllFit texts before ∧ ¬ edit.Fits (cellAfter texts before edit.path) := by
  induction edits using List.reverseRecOn with
  | nil => exact .inl fun before edit after h => by simp at h
  | append_singleton edits last ih =>
      rcases ih with hall | ⟨before, edit, after, rfl, hbefore, hmisfit⟩
      · by_cases hlast : last.Fits (cellAfter texts edits last.path)
        · refine .inl fun before edit after heq => ?_
          cases after using List.reverseRecOn with
          | nil =>
              obtain ⟨rfl, hsingle⟩ := List.append_inj' heq rfl
              obtain rfl := List.singleton_inj.1 hsingle
              exact hlast
          | append_singleton after final =>
              rw [← List.cons_append, ← List.append_assoc] at heq
              exact hall before edit after (List.append_inj' heq rfl).1
        · exact .inr ⟨edits, last, [], rfl, hall, hlast⟩
      · exact .inr ⟨before, edit, after ++ [last],
          by rw [← List.cons_append, List.append_assoc], hbefore, hmisfit⟩

/-! ## Batches -/

def fitBatches (texts : List TextFile) (batches : List (List TextEdit)) :
    List TextFile × List (TextEdit × EditFailure) :=
  batches.foldl
    (fun done batch =>
      let next := applyFitting done.1 batch
      (next.1, done.2 ++ next.2))
    (texts, [])

private theorem applyFitting_append (texts : List TextFile)
    (first second : List TextEdit) :
    applyFitting texts (first ++ second) =
      let done := applyFitting texts first
      let next := applyFitting done.1 second
      (next.1, done.2 ++ next.2) := by
  induction first generalizing texts with
  | nil => rfl
  | cons edit first ih =>
      rw [List.cons_append, applyFitting, applyFitting]
      cases edit.apply texts with
      | ok texts' => exact ih texts'
      | error failure => simp only [ih, List.cons_append]

private theorem applyFitting_flatten (texts : List TextFile)
    (batches : List (List TextEdit)) :
    applyFitting texts batches.flatten = fitBatches texts batches := by
  induction batches using List.reverseRecOn with
  | nil => rfl
  | append_singleton batches batch ih =>
      rw [List.flatten_append, List.flatten_singleton, applyFitting_append, ih]
      simp only [fitBatches, List.foldl_append, List.foldl_cons, List.foldl_nil]

private theorem applyAll?_flatten (texts : List TextFile)
    (batches : List (List TextEdit)) :
    applyAll? texts batches.flatten = batches.foldlM applyAll? texts := by
  induction batches generalizing texts with
  | nil => rfl
  | cons batch batches ih =>
      rw [List.flatten_cons, applyAll?_append, List.foldlM_cons]
      exact bind_congr ih

/-! ## Edits as a whole -/

/-- The edits act on the cells of the texts, each on the one at its path. -/
structure ActsOnCells (texts : List TextFile) (edits : List TextEdit) :
    Prop where
  cells : ∀ path,
    textAt? (applyFitting texts edits).1 path = cellAfter texts edits path
  apart : PathsApart (applyFitting texts edits).1
  strict : ∀ result, applyAll? texts edits = .ok result ↔
    AllFit texts edits ∧ result = (applyFitting texts edits).1
  refused : ∀ failure, applyAll? texts edits = .error failure ↔
    ∃ before edit after, edits = before ++ edit :: after ∧
      AllFit texts before ∧ ¬ edit.Fits (cellAfter texts before edit.path) ∧
      failure = edit.misfit (cellAfter texts before edit.path)
  batches : ∀ parts : List (List TextEdit), parts.flatten = edits →
    applyFitting texts edits = fitBatches texts parts ∧
      applyAll? texts edits = parts.foldlM applyAll? texts

/--
Edits act on the cells of the texts, provided that the paths differ and that
the digest tells apart what is there from what the edits speak of.
-/
theorem acts_on_cells (apart : PathsApart texts)
    (free : CollisionFree fun t => t ∈ texts ∨ ∃ edit ∈ edits, t ∈ edit.mentions) :
    ActsOnCells texts edits := by
  have htexts : ∀ t ∈ texts, t ∈ texts ∨ ∃ edit ∈ edits, t ∈ edit.mentions :=
    fun t ht => .inl ht
  have hedits : ∀ edit ∈ edits, ∀ t ∈ edit.mentions,
      t ∈ texts ∨ ∃ edit ∈ edits, t ∈ edit.mentions :=
    fun edit hedit t ht => .inr ⟨edit, hedit, ht⟩
  have hmisfit : ∀ before edit after, edits = before ++ edit :: after →
      AllFit texts before → ¬ edit.Fits (cellAfter texts before edit.path) →
      applyAll? texts edits =
        .error (edit.misfit (cellAfter texts before edit.path)) := by
    intro before edit after hsplit hbefore hmisfit
    have hknown : ∀ e ∈ before ++ edit :: after, ∀ t ∈ e.mentions,
        t ∈ texts ∨ ∃ edit ∈ edits, t ∈ edit.mentions := hsplit ▸ hedits
    have := applyAll?_of_misfit free apart htexts hknown hbefore hmisfit
    rwa [← hsplit] at this
  refine
    { cells := textAt?_applyFitting free apart htexts hedits
      apart := apart.applyFitting edits
      strict := fun result => ⟨fun hok => ?_, ?_⟩
      refused := fun failure => ⟨fun herror => ?_, ?_⟩
      batches := ?_ }
  · rcases allFit_or texts edits with
      hall | ⟨before, edit, after, hsplit, hbefore, hnot⟩
    · exact ⟨hall, by rw [applyFitting_of_applyAll? hok]⟩
    · rw [hmisfit before edit after hsplit hbefore hnot] at hok
      contradiction
  · rintro ⟨hall, rfl⟩
    exact applyAll?_of_allFit free apart htexts hedits hall
  · rcases allFit_or texts edits with
      hall | ⟨before, edit, after, hsplit, hbefore, hnot⟩
    · rw [applyAll?_of_allFit free apart htexts hedits hall] at herror
      contradiction
    · rw [hmisfit before edit after hsplit hbefore hnot] at herror
      exact ⟨before, edit, after, hsplit, hbefore, hnot,
        (Except.error.inj herror).symm⟩
  · rintro ⟨before, edit, after, hsplit, hbefore, hnot, rfl⟩
    exact hmisfit before edit after hsplit hbefore hnot
  · rintro parts rfl
    exact ⟨applyFitting_flatten texts parts, applyAll?_flatten texts parts⟩

end TextEdit

/-! ## A change that comes twice -/

namespace Renaming

open TextEdit

def edits : List TextEdit :=
  [.change first ⟨"a.txt", "z"⟩, .change first ⟨"a.txt", "w"⟩, .remove second]

private theorem collisionFree_edits : CollisionFree fun t =>
    t ∈ [first, second] ∨ ∃ edit ∈ edits, t ∈ edit.mentions := by
  have hknown : ∀ t, (t ∈ [first, second] ∨ ∃ edit ∈ edits, t ∈ edit.mentions) →
      t ∈ [first, second, ⟨"a.txt", "z"⟩, ⟨"a.txt", "w"⟩] := by
    intro t ht
    simp [edits, mentions] at ht ⊢
    tauto
  exact collisionFree_of_nodup hknown (by decide +kernel)

theorem edits_act_on_cells :
    PathsApart [first, second] ∧ ActsOnCells [first, second] edits :=
  have apart : PathsApart [first, second] := by decide
  ⟨apart, acts_on_cells apart collisionFree_edits⟩

end Renaming

end Regen
