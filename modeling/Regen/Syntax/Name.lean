import Regen.Text.Blank

/-!
Names as they are written in a file.  A written name may be qualified with `.`
or `::` and may carry type arguments in angle brackets; its unqualified form is
the last segment in front of the first bracket, without blanks around it.
-/

namespace Regen.Syntax

def afterLast? (sep : List Char) : List Char → Option (List Char)
  | [] => none
  | c :: cs =>
      match afterLast? sep cs with
      | some rest => some rest
      | none =>
          if sep.isPrefixOf (c :: cs) then some ((c :: cs).drop sep.length)
          else none

def afterLast (sep cs : List Char) : List Char :=
  (afterLast? sep cs).getD cs

def unqualifiedChars (cs : List Char) : List Char :=
  Text.trimChars
    (afterLast ['.'] (afterLast [':', ':'] (cs.takeWhile (· != '<'))))

/-- The unqualified form of a written name: `global::A.B.C<T>` names `C`. -/
def unqualified (written : String) : String :=
  String.ofList (unqualifiedChars written.toList)

example : unqualified "global::A.B.C<T>" = "C" := by decide +kernel
example : unqualified "Outer<int>.Inner" = "Outer" := by decide +kernel

end Regen.Syntax
