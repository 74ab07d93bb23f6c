/-!
Kinds of syntax node.  Type declarations are the kinds a type selector may
return; declarations are all the kinds a marker may be attached to.
-/

namespace Regen.Syntax

inductive Kind where
  | compilationUnit
  | namespaceBlock
  | classType
  | structType
  | interfaceType
  | recordType
  | enumType
  | method
  | constructor
  | property
  | field
  | parameter
  | localFunction
  | block
  | statement
  | expression
  | lambda
  | attributeList
  deriving DecidableEq, Repr

namespace Kind

def all : List Kind :=
  [.compilationUnit, .namespaceBlock, .classType, .structType, .interfaceType,
    .recordType, .enumType, .method, .constructor, .property, .field,
    .parameter, .localFunction, .block, .statement, .expression, .lambda,
    .attributeList]

def name : Kind → String
  | .compilationUnit => "CompilationUnit"
  | .namespaceBlock => "Namespace"
  | .classType => "Class"
  | .structType => "Struct"
  | .interfaceType => "Interface"
  | .recordType => "Record"
  | .enumType => "Enum"
  | .method => "Method"
  | .constructor => "Constructor"
  | .property => "Property"
  | .field => "Field"
  | .parameter => "Parameter"
  | .localFunction => "LocalFunction"
  | .block => "Block"
  | .statement => "Statement"
  | .expression => "Expression"
  | .lambda => "Lambda"
  | .attributeList => "AttributeList"

def ofName? (s : String) : Option Kind :=
  all.find? (·.name == s)

def isType : Kind → Bool
  | .classType | .structType | .interfaceType | .recordType | .enumType => true
  | _ => false

def isDeclaration : Kind → Bool
  | .method | .constructor | .property | .field | .parameter
  | .localFunction => true
  | kind => kind.isType

/-- Kinds whose using directives are in force throughout the node. -/
def opensScope : Kind → Bool
  | .compilationUnit | .namespaceBlock => true
  | _ => false

theorem mem_all (kind : Kind) : kind ∈ all := by
  cases kind <;> simp [all]

theorem ofName?_name (kind : Kind) : ofName? kind.name = some kind := by
  cases kind <;> rfl

theorem isDeclaration_of_isType {kind : Kind} (h : kind.isType = true) :
    kind.isDeclaration = true := by
  cases kind <;> simp_all [isType, isDeclaration]

end Kind

end Regen.Syntax
