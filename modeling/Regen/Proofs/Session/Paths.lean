import Regen.Proofs.Session.Protocol

/-!
# The paths of the texts

A text is known by its path, so no two texts of a session should share one.
Every operation keeps the paths apart, with a single exception: the text that
takes the place of another one may bring along a path that is already taken.
-/

namespace Regen

section Sequences

variable {α κ : Type} {here : α → Bool} {key : α → κ} {new : α} {as : List α}

private theorem map_replaceFirst (h : ∀ a ∈ as, here a = true → key a = key new) :
    (replaceFirst here new as).map key = as.map key := by
  induction as with
  | nil => rfl
  | cons a as ih =>
      unfold replaceFirst
      split
      · next ha => rw [List.map_cons, List.map_cons, h a (by simp) ha]
      · rw [List.map_cons, List.map_cons, ih fun b hb => h b (by simp [hb])]

private theorem replaceFirst_eq_self (h : ∀ a ∈ as, here a = false) :
    replaceFirst here new as = as := by
  induction as with
  | nil => rfl
  | cons a as ih =>
      rw [replaceFirst, h a (by simp), ih fun b hb => h b (by simp [hb])]
      rfl

private theorem exists_replaceFirst (h : ∃ a ∈ as, here a = true) :
    ∃ before a rest, as = before ++ a :: rest ∧ here a = true ∧
      replaceFirst here new as = before ++ new :: rest := by
  induction as with
  | nil => simp at h
  | cons a as ih =>
      by_cases ha : here a = true
      · exact ⟨[], a, as, rfl, ha, if_pos ha⟩
      · have hrest : ∃ b ∈ as, here b = true := by simpa [ha] using h
        obtain ⟨before, b, rest, rfl, hb, hnew⟩ := ih hrest
        refine ⟨a :: before, b, rest, rfl, hb, ?_⟩
        rw [replaceFirst, if_neg ha, hnew]
        rfl

private theorem map_upsert [DecidableEq κ] :
    (upsert (key · == key new) new as).map key =
      if key new ∈ as.map key then as.map key else as.map key ++ [key new] := by
  induction as with
  | nil => simp [upsert]
  | cons a as ih =>
      unfold upsert
      by_cases ha : key a = key new
      · simp [ha]
      · have hb : (key a == key new) = false := by simpa using ha
        rw [hb, if_neg (by simp), List.map_cons, ih, List.map_cons]
        have hmem : key new ∈ key a :: as.map key ↔ key new ∈ as.map key := by
          simp [Ne.symm ha]
        simp only [hmem]
        split <;> rfl

end Sequences

def PathsApart (texts : List TextFile) : Prop :=
  (texts.map (·.path)).Nodup

instance (texts : List TextFile) : Decidable (PathsApart texts) :=
  inferInstanceAs (Decidable (List.Nodup _))

namespace PathsApart

variable {texts texts' : List TextFile}

theorem upsert (h : PathsApart texts) (t : TextFile) :
    PathsApart (Regen.upsert (·.path == t.path) t texts) := by
  rw [PathsApart, map_upsert]
  split
  · exact h
  · next habsent =>
    exact List.nodup_append.2 ⟨h, List.nodup_singleton _, by simpa using habsent⟩

theorem addTexts (h : PathsApart texts) (new : List TextFile) :
    PathsApart (new.foldl
      (fun all t => Regen.upsert (·.path == t.path) t all) texts) := by
  induction new generalizing texts with
  | nil => exact h
  | cons t new ih => exact ih (h.upsert t)

theorem sublist (h : PathsApart texts) (hsub : texts'.Sublist texts) :
    PathsApart texts' :=
  List.Nodup.sublist (hsub.map _) h

theorem apply (h : PathsApart texts) {edit : TextEdit}
    (hok : edit.apply texts = .ok texts') : PathsApart texts' := by
  cases edit with
  | add t =>
      rw [TextEdit.apply] at hok
      split at hok
      · contradiction
      · next hnone =>
        obtain rfl := Except.ok.inj hok
        have habsent : ∀ u ∈ texts, (u.path == t.path) = false := by
          simpa [TextEdit.textAt?] using hnone
        rw [← upsert_eq_append habsent]
        exact h.upsert t
  | remove t =>
      rw [TextEdit.apply] at hok
      split at hok
      · obtain rfl := Except.ok.inj hok
        exact h.sublist List.eraseP_sublist
      · contradiction
  | change old new =>
      rw [TextEdit.apply] at hok
      split at hok
      · contradiction
      · next hpath =>
        rw [not_not] at hpath
        split at hok
        · contradiction
        · split at hok
          · obtain rfl := Except.ok.inj hok
            rw [PathsApart, map_replaceFirst fun t _ ht => ?_]
            · exact h
            · rw [← hpath]
              exact eq_of_beq ht
          · contradiction

theorem applyFitting (h : PathsApart texts) (edits : List TextEdit) :
    PathsApart (TextEdit.applyFitting texts edits).1 := by
  induction edits generalizing texts with
  | nil => exact h
  | cons edit edits ih =>
      rw [TextEdit.applyFitting]
      cases hok : edit.apply texts with
      | ok texts' => exact ih (h.apply hok)
      | error failure => exact ih h

end PathsApart

variable {U : Type}

namespace Session

/-- A text would be replaced by one that has the path of a third. -/
def Doubles (s : Session U) : Operation → Prop
  | .replaceText old new =>
      (∃ t ∈ s.texts, t.same old = true) ∧ new.path ≠ old.path ∧
        new.path ∈ s.texts.map (·.path)
  | _ => False

private theorem replaceText_apart_iff {s : Session U} (h : PathsApart s.texts)
    (old new : TextFile) :
    PathsApart (s.replaceText old new).texts ↔
      ¬ s.Doubles (.replaceText old new) := by
  rw [replaceText, Doubles]
  by_cases hpresent : ∃ t ∈ s.texts, t.same old = true
  · obtain ⟨before, t, rest, htexts, ht, hnew⟩ :=
      @exists_replaceFirst _ _ new _ hpresent
    have hsplit : t.path ∉ (before ++ rest).map (·.path) ∧
        ((before ++ rest).map (·.path)).Nodup := by
      rw [htexts, PathsApart, List.map_append, List.map_cons,
        List.nodup_middle, List.nodup_cons, ← List.map_append] at h
      exact h
    rw [PathsApart, hnew, List.map_append, List.map_cons, List.nodup_middle,
      List.nodup_cons, ← List.map_append, htexts,
      ← ((TextFile.same_iff t old).1 ht).1]
    have hmem : new.path ∈ (before ++ t :: rest).map (·.path) ↔
        new.path = t.path ∨ new.path ∈ (before ++ rest).map (·.path) := by
      rw [List.map_append, List.map_cons, List.mem_append, List.mem_cons,
        List.map_append, List.mem_append, or_left_comm]
    rw [htexts] at hpresent
    rw [and_iff_left hsplit.2, and_iff_right hpresent, hmem, not_and_or,
      not_not, not_or]
    by_cases hpath : new.path = t.path
    · rw [hpath]
      exact iff_of_true hsplit.1 (.inl rfl)
    · simp only [hpath, false_or, not_false_eq_true, true_and]
  · have habsent : ∀ t ∈ s.texts, t.same old = false := by simpa using hpresent
    simp only [replaceFirst_eq_self habsent, hpresent, false_and, not_false_eq_true]
    exact iff_of_true h trivial

variable [BEq U]

private theorem texts_of_job? {s : Session U} {o : Operation} {job : Job}
    (h : s.job? o = some job) :
    ∃ edits, job.texts = (TextEdit.applyFitting s.texts edits).1 := by
  cases habsorbs : o.absorbsOver? with
  | some compilation =>
      rw [(perform_of_absorbsOver? habsorbs).2, foldl_enqueue] at h
      obtain ⟨texts, htexts, rfl⟩ := Option.map_eq_some_iff.1 h
      obtain ⟨-, -, happly, -⟩ := absorbs?_eq_some htexts
      exact ⟨_, (congrArg Prod.fst
        (TextEdit.applyFitting_of_applyAll? happly)).symm⟩
  | none =>
      cases o with
      | run compilation cancel =>
          obtain rfl := Option.some.inj h
          exact ⟨_, rfl⟩
      | _ => contradiction

omit [BEq U] in
private theorem Doubles.eq_replaceText {s : Session U} {o : Operation}
    (h : s.Doubles o) : ∃ old new, o = .replaceText old new := by
  cases o with
  | replaceText old new => exact ⟨old, new, rfl⟩
  | _ => exact h.elim

private theorem perform_apart_iff {s s' : Session U} (h : PathsApart s.texts)
    {o : Operation} (hok : (s.perform o).outcome = .ok s') :
    PathsApart s'.texts ↔ ¬ s.Doubles o := by
  cases s.ended o with
  | failed e hend =>
      rw [hend] at hok
      contradiction
  | published hjob tables runs hend hreports =>
      rw [hend] at hok
      obtain rfl := Except.ok.inj hok
      obtain ⟨edits, htexts⟩ := texts_of_job? hjob
      refine iff_of_true ?_ fun hdoubles => ?_
      · rw [publish, htexts]
        exact h.applyFitting edits
      · obtain ⟨old, new, rfl⟩ := hdoubles.eq_replaceText
        contradiction
  | quiet hquiet hend hreports =>
      rw [hend] at hok
      obtain rfl := Except.ok.inj hok
      have absorbing : ∀ {compilation}, o.absorbsOver? = some compilation →
          ¬ s.Doubles o := by
        intro compilation habsorbs hdoubles
        obtain ⟨old, new, rfl⟩ := hdoubles.eq_replaceText
        contradiction
      cases hquiet with
      | enqueue edit => exact iff_of_true h id
      | addTexts texts => exact iff_of_true (h.addTexts texts) id
      | removeTexts paths => exact iff_of_true (h.sublist List.filter_sublist) id
      | replaceText old new => exact replaceText_apart_iff h old new
      | idle habsorbs => exact iff_of_true h (absorbing habsorbs)
      | refused habsorbs _ _ => exact iff_of_true h (absorbing habsorbs)

def apart (s : Session U) (o : Operation) : Prop :=
  ¬ s.Doubles o

/--
As long as no text is replaced by one that has the path of a third, the paths
of all texts differ, and the next operation keeps them apart unless it does so.
-/
theorem texts_apart {generators : List (Generator U)} {options : Options}
    {s s' : Session U} (h : Reached apart generators options s) {o : Operation}
    (hok : (s.perform o).outcome = .ok s') :
    PathsApart s.texts ∧ (PathsApart s'.texts ↔ ¬ s.Doubles o) := by
  have hapart : PathsApart s.texts := by
    clear hok
    induction h with
    | start => exact List.nodup_nil
    | step _ hallowed hok ih => exact (perform_apart_iff ih hok).2 hallowed
  exact ⟨hapart, perform_apart_iff hapart hok⟩

end Session

/-! ## A text that moves -/

namespace Renaming

open Session

def first : TextFile := ⟨"a.txt", "x"⟩

def second : TextFile := ⟨"b.txt", "y"⟩

def start : Session Unit :=
  { generators := [] }

def both : Session Unit :=
  start.addTexts [first, second]

private theorem texts_both : both.texts = [first, second] := by
  decide

def moved (path : String) : Session Unit :=
  both.replaceText first ⟨path, "z"⟩

private theorem texts_moved (path : String) :
    (moved path).texts = [⟨path, "z"⟩, second] := by
  rw [moved, replaceText, texts_both, replaceFirst,
    if_pos (TextFile.same_refl first)]

theorem moved_apart :
    PathsApart both.texts ∧ PathsApart (moved "c.txt").texts := by
  have hreached : Reached apart [] {} both := .step .start
    (show start.apart (.addTexts [first, second]) from id) rfl
  have hfree : ¬ both.Doubles (.replaceText first ⟨"c.txt", "z"⟩) := by
    rw [Doubles, texts_both]
    rintro ⟨-, -, htaken⟩
    revert htaken
    decide
  obtain ⟨hboth, hmoved⟩ := @texts_apart _ _ _ _ _ (moved "c.txt") hreached
    (.replaceText first ⟨"c.txt", "z"⟩) rfl
  exact ⟨hboth, hmoved.2 hfree⟩

theorem moved_not_apart :
    Reached anyOperation [] {} (moved "b.txt") ∧
      ¬ PathsApart (moved "b.txt").texts := by
  have hboth : Reached anyOperation [] {} both := .step .start
    (show anyOperation start (.addTexts [first, second]) from trivial) rfl
  refine ⟨.step hboth (show anyOperation both
    (.replaceText first ⟨"b.txt", "z"⟩) from trivial) rfl, ?_⟩
  rw [texts_moved]
  decide

end Renaming

end Regen
