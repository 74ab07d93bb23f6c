import Regen.Error
import Regen.Syntax.Node
import Regen.Text.CharClass

/-!
Markers and shapes.  A marker is asked for by an identifier.  An attribute may
be written with the suffix `Attribute` or without it, so a marker stands for its
own name and, unless the name has the suffix already, for the suffixed one.  A
shape says which declarations a selector returns.
-/

namespace Regen

open Syntax

namespace Marker

def suffix : String := "Attribute"

def written (name : String) (suffixed : Bool) : String :=
  if suffixed then name ++ suffix else name

def startsIdentifier (c : Char) : Bool :=
  Text.isLetter c || c == '_'

def continuesIdentifier (c : Char) : Bool :=
  Text.isLetter c || Text.isNumeral c || c == '_'

def isValidName (name : String) : Bool :=
  match name.toList with
  | [] => false
  | c :: cs => startsIdentifier c && cs.all continuesIdentifier

end Marker

structure Marker where
  name : String
  valid : Marker.isValidName name = true

namespace Marker

def ofName? (name : String) : Except GraphError Marker :=
  if h : isValidName name = true then .ok ⟨name, h⟩
  else .error (.invalidMarker name)

def literals (m : Marker) : List String :=
  if suffix.toList.isSuffixOf m.name.toList then [m.name]
  else [m.name, m.name ++ suffix]

end Marker

inductive Shape where
  | anyDeclaration
  | typeDeclaration
  | oneOf (kinds : List Kind)
  deriving DecidableEq, Repr

def Shape.accepts : Shape → Kind → Bool
  | .anyDeclaration, kind => kind.isDeclaration
  | .typeDeclaration, kind => kind.isType
  | .oneOf kinds, kind => kinds.contains kind

end Regen
