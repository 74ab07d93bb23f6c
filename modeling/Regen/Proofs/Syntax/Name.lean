import Regen.Syntax.Node

/-!
# Qualified names

A written name is made of segments with `.` or `::` between them.  A segment is
an identifier and may carry type arguments in angle brackets.  As the
unqualified form looks no further than the first bracket, it is the identifier
of the first segment that carries arguments, and that of the last segment only
where no segment in front of it carries any.
-/

namespace Regen.Syntax

/-- Identifiers hold neither blanks nor any sign that puts names together. -/
def isIdentifierChar (c : Char) : Bool :=
  !(['<', '>', '.', ':', ','].contains c) && !Text.isBlank c

/-- Every bracket is closed; so many are open in front of the text. -/
def closesBrackets : (opened : Nat) → List Char → Bool
  | opened, [] => opened == 0
  | opened, '<' :: cs => closesBrackets (opened + 1) cs
  | 0, '>' :: _ => false
  | opened + 1, '>' :: cs => closesBrackets opened cs
  | opened, _ :: cs => closesBrackets opened cs

structure Segment where
  identifier : String
  arguments : Option String := none
  nonempty : identifier ≠ "" := by decide
  plain : identifier.toList.all isIdentifierChar = true := by decide
  closed : ∀ inner ∈ arguments, closesBrackets 0 inner.toList = true := by decide

def Segment.text (s : Segment) : String :=
  match s.arguments with
  | some inner => s.identifier ++ "<" ++ inner ++ ">"
  | none => s.identifier

inductive Separator where
  | dot
  | colons
  deriving DecidableEq, Repr

def Separator.text : Separator → String
  | .dot => "."
  | .colons => "::"

inductive QualifiedName where
  | single (segment : Segment)
  | cons (qualifier : Segment) (separator : Separator) (rest : QualifiedName)

namespace QualifiedName

def text : QualifiedName → String
  | single s => s.text
  | cons s separator rest => s.text ++ separator.text ++ rest.text

def last : QualifiedName → Segment
  | single s => s
  | cons _ _ rest => rest.last

def qualifiers : QualifiedName → List Segment
  | single _ => []
  | cons s _ rest => s :: rest.qualifiers

/-- The first qualifier that carries arguments, or the last segment. -/
def reached (n : QualifiedName) : Segment :=
  (n.qualifiers.find? (·.arguments.isSome)).getD n.last

end QualifiedName

/-! ## What follows a separator -/

section

variable {a c : Char} {sep p q rest : List Char}

private theorem afterLast?_append (p : List Char) (h : afterLast? sep q = some rest) :
    afterLast? sep (p ++ q) = some rest := by
  induction p with
  | nil => exact h
  | cons c p ih => simp [afterLast?, ih]

private theorem afterLast?_append_of_notMem (h : a ∉ p) :
    afterLast? (a :: sep) (p ++ q) = afterLast? (a :: sep) q := by
  induction p with
  | nil => rfl
  | cons c p ih =>
      simp only [List.mem_cons, not_or] at h
      rw [List.cons_append, afterLast?, ih h.2]
      cases afterLast? (a :: sep) q <;> simp [List.isPrefixOf, h.1]

private theorem afterLast_of_notMem (h : a ∉ p) : afterLast (a :: sep) p = p := by
  have hnone : afterLast? (a :: sep) p = none := by
    simpa [afterLast?] using afterLast?_append_of_notMem (q := []) h
  rw [afterLast, hnone]
  rfl

private theorem afterLast_dot (p q : List Char) :
    afterLast ['.'] (p ++ '.' :: q) = afterLast ['.'] q := by
  have hfound : afterLast? ['.'] ('.' :: q) = some (afterLast ['.'] q) := by
    rw [afterLast?, afterLast]
    cases afterLast? ['.'] q <;> simp [List.isPrefixOf]
  rw [afterLast, afterLast?_append p hfound]
  rfl

private theorem afterLast_colons (p : List Char) (h : q.head? ≠ some ':') :
    afterLast [':', ':'] (p ++ ':' :: ':' :: q) = afterLast [':', ':'] q := by
  have hfound : afterLast? [':', ':'] (':' :: ':' :: q) =
      some (afterLast [':', ':'] q) := by
    rw [afterLast?, afterLast?, afterLast]
    cases afterLast? [':', ':'] q with
    | some rest => rfl
    | none =>
        cases q with
        | nil => rfl
        | cons c q =>
            -- a third colon would shift the separator
            have hc : c ≠ ':' := by simpa using h
            simp [List.isPrefixOf, hc.symm]
  rw [afterLast, afterLast?_append p hfound]
  rfl

def lastPart (cs : List Char) : List Char :=
  afterLast ['.'] (afterLast [':', ':'] cs)

private theorem lastPart_dot (hp : ':' ∉ p) :
    lastPart (p ++ '.' :: q) = lastPart q := by
  have hsame : afterLast? [':', ':'] (p ++ '.' :: q) =
      afterLast? [':', ':'] q := by
    rw [List.append_cons p '.' q]
    exact afterLast?_append_of_notMem (by simp [hp])
  have hparts (cs : List Char) : lastPart cs =
      afterLast ['.'] ((afterLast? [':', ':'] cs).getD cs) := rfl
  rw [hparts, hparts, hsame]
  cases afterLast? [':', ':'] q with
  | some rest => rfl
  | none => exact afterLast_dot p q

private theorem lastPart_colons (p : List Char) (hq : q.head? ≠ some ':') :
    lastPart (p ++ ':' :: ':' :: q) = lastPart q := by
  rw [lastPart, afterLast_colons p hq, lastPart]

end

/-! ## The part in front of the first bracket -/

def bracketless (cs : List Char) : List Char :=
  cs.takeWhile (· != '<')

private theorem lastPart_separator {p cs : List Char} (separator : Separator)
    (hp : ':' ∉ p) (hcs : (bracketless cs).head? ≠ some ':') :
    lastPart (p ++ bracketless (separator.text.toList ++ cs)) =
      lastPart (bracketless cs) := by
  cases separator with
  | dot => exact lastPart_dot hp
  | colons => exact lastPart_colons p hcs

namespace Segment

variable (s : Segment)

private theorem notMem_of_not_isIdentifierChar {c : Char}
    (h : isIdentifierChar c = false) : c ∉ s.identifier.toList := by
  intro hc
  rw [List.all_eq_true.1 s.plain c hc] at h
  contradiction

private theorem bracketless_text (more : List Char) :
    bracketless (s.text.toList ++ more) = s.identifier.toList ++
      if s.arguments.isSome then [] else bracketless more := by
  have hplain : ∀ c ∈ s.identifier.toList, (c != '<') = true := by
    intro c hc
    rw [bne_iff_ne]
    rintro rfl
    exact s.notMem_of_not_isIdentifierChar (by decide) hc
  rw [bracketless, text]
  cases s.arguments with
  | none => simp [List.takeWhile_append_of_pos hplain, bracketless]
  | some inner =>
      simp [List.append_assoc, List.takeWhile_append_of_pos hplain]

private theorem trimChars_identifier :
    Text.trimChars s.identifier.toList = s.identifier.toList := by
  refine Text.trimChars_eq_self fun c hc => ?_
  have hplain := List.all_eq_true.1 s.plain c hc
  simp only [isIdentifierChar, Bool.and_eq_true, Bool.not_eq_true'] at hplain
  exact hplain.2

private theorem lastPart_identifier :
    lastPart s.identifier.toList = s.identifier.toList := by
  rw [lastPart,
    afterLast_of_notMem (s.notMem_of_not_isIdentifierChar (by decide)),
    afterLast_of_notMem (s.notMem_of_not_isIdentifierChar (by decide))]

end Segment

namespace QualifiedName

private theorem head?_bracketless_text (n : QualifiedName) :
    (bracketless n.text.toList).head? ≠ some ':' := by
  have hfirst : ∀ (s : Segment) (more : List Char),
      (bracketless (s.text.toList ++ more)).head? ≠ some ':' := by
    intro s more hcolon
    have hnonempty : s.identifier.toList ≠ [] := by
      simpa using s.nonempty
    obtain ⟨c, cs, hcs⟩ := List.exists_cons_of_ne_nil hnonempty
    rw [s.bracketless_text, hcs, List.cons_append, List.head?_cons,
      Option.some.injEq] at hcolon
    exact s.notMem_of_not_isIdentifierChar (c := ':') (by decide)
      (by simp [hcs, hcolon])
  cases n with
  | single s => simpa [text] using hfirst s []
  | cons s separator rest => simpa [text] using hfirst s _

private theorem lastPart_bracketless_text (n : QualifiedName) :
    lastPart (bracketless n.text.toList) = n.reached.identifier.toList := by
  induction n with
  | single s =>
      have htext := s.bracketless_text []
      simp only [List.append_nil, bracketless, List.takeWhile_nil, ite_self]
        at htext
      rw [text, bracketless, htext, s.lastPart_identifier]
      rfl
  | cons s separator rest ih =>
      have htext := s.bracketless_text (separator.text ++ rest.text).toList
      rw [text, String.append_assoc, String.toList_append, htext]
      cases harguments : s.arguments with
      | some inner =>
          simp [reached, qualifiers, harguments, s.lastPart_identifier]
      | none =>
          have hreached : (cons s separator rest).reached = rest.reached := by
            simp [reached, qualifiers, harguments, last]
          rw [hreached, ← ih]
          have hcolon : ':' ∉ s.identifier.toList :=
            s.notMem_of_not_isIdentifierChar (by decide)
          rw [String.toList_append]
          exact lastPart_separator separator hcolon rest.head?_bracketless_text

end QualifiedName

/--
The unqualified form of a name, of a marker as well as of the target of an
alias, is the identifier of the segment that the first bracket belongs to, or of
the last one if there is no bracket in front of that.
-/
theorem unqualified_text (n : QualifiedName) :
    unqualified n.text = n.reached.identifier ∧
      (unqualified n.text = n.last.identifier ↔
        ∀ s, n.qualifiers.find? (·.arguments.isSome) = some s →
          s.identifier = n.last.identifier) ∧
      (∀ arguments, (Attribute.mk n.text arguments).unqualifiedName =
        unqualified n.text) ∧
      ∀ isGlobal name, (Using.mk isGlobal (some name) n.text).aliasPair? =
        some (name, unqualified n.text) := by
  have hreached : unqualified n.text = n.reached.identifier := by
    change String.ofList (Text.trimChars
      (lastPart (bracketless n.text.toList))) = _
    rw [n.lastPart_bracketless_text, n.reached.trimChars_identifier,
      String.ofList_toList]
  refine ⟨hreached, ?_, fun _ => rfl, fun _ _ => rfl⟩
  rw [hreached, QualifiedName.reached]
  cases n.qualifiers.find? (·.arguments.isSome) <;> simp

def nestedName : QualifiedName :=
  .cons { identifier := "Outer", arguments := some "int" } .dot
    (.single { identifier := "Inner" })

theorem unqualified_nestedName :
    nestedName.text = "Outer<int>.Inner" ∧
      nestedName.last.identifier = "Inner" ∧
      unqualified nestedName.text ≠ nestedName.last.identifier := by
  decide +kernel

end Regen.Syntax
