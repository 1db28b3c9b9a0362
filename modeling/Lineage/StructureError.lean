import Lineage.Declaration

/-!
# Structural errors

Why a set of declarations has no hierarchy. Each error has a word for its kind, a message, and the
names of the types that it concerns.
-/

namespace Lineage

/-- Why declarations cannot be made into a hierarchy. -/
inductive StructureError
  | malformed (name : TypeName) (reason : String)
  | unresolved (name source : TypeName)
  | duplicate (name : TypeName)
  | inheritanceCycle (path : List TypeName)
  | multipleInheritance (name : TypeName)
  | kindMismatch (name supertype : TypeName) (expected : Role)
  | enclosingCycle (path : List TypeName)
  deriving DecidableEq, Repr

/-- The error of a draft that cannot be built. A draft without a name is reported under the empty
name, any other under its trimmed name. -/
def Draft.error (d : Draft) (flaw : Flaw) : StructureError :=
  .malformed d.declaredName flaw.reason

/-- A cycle in prose: the path, and its first name again. -/
def cycleText (path : List TypeName) : String :=
  " -> ".intercalate (path ++ path.head?.toList)

namespace StructureError

def key : StructureError → String
  | malformed .. => "malformed_declaration"
  | unresolved .. => "unresolved_reference"
  | duplicate .. => "duplicate_declaration"
  | inheritanceCycle .. => "inheritance_cycle"
  | multipleInheritance .. => "multiple_class_inheritance"
  | kindMismatch .. => "supertype_kind_mismatch"
  | enclosingCycle .. => "enclosing_cycle"

def message : StructureError → String
  | malformed name reason => "Malformed declaration '" ++ name ++ "': " ++ reason
  | unresolved name source => "Unresolved reference '" ++ name ++ "' in '" ++ source ++ "'"
  | duplicate name => "Duplicate declaration: " ++ name
  | inheritanceCycle path => "Inheritance cycle: " ++ cycleText path
  | multipleInheritance name =>
    "Multiple class inheritance: " ++ name ++ " extends more than one class"
  | kindMismatch name supertype expected =>
    "'" ++ name ++ "' lists '" ++ supertype ++ "' where " ++ expected.phrase ++ " is required"
  | enclosingCycle path => "Enclosing cycle: " ++ cycleText path

def types : StructureError → List TypeName
  | malformed name _ => [name]
  | unresolved name source => [source, name]
  | duplicate name => [name]
  | inheritanceCycle path => path
  | multipleInheritance name => [name]
  | kindMismatch name supertype _ => [name, supertype]
  | enclosingCycle path => path

end StructureError

/-- A question about a name that is no type of the hierarchy. -/
structure UnknownType where
  name : TypeName
  deriving DecidableEq, Repr

namespace UnknownType

def key : String := "unknown_type"

def message (e : UnknownType) : String := "Unknown type: " ++ e.name

end UnknownType

end Lineage
