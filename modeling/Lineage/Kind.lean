/-!
# Kinds and roles

The three kinds of declared types, the two roles in which a supertype is named, and the three kinds
of edges that join types.
-/

namespace Lineage

/-- The kind of a declared type. -/
inductive TypeKind
  | concreteClass
  | abstractClass
  | interface
  deriving DecidableEq, Repr, Inhabited

namespace TypeKind

def all : List TypeKind := [concreteClass, abstractClass, interface]

/-- The word for a kind in data. -/
def key : TypeKind → String
  | concreteClass => "class"
  | abstractClass => "abstract_class"
  | interface => "interface"

/-- The word for a kind in prose. -/
def label : TypeKind → String
  | concreteClass => "class"
  | abstractClass => "abstract class"
  | interface => "interface"

def ofKey? (word : String) : Option TypeKind :=
  all.find? (·.key = word)

/-- Classes, abstract or not. -/
def isClass : TypeKind → Bool
  | interface => false
  | _ => true

/-- Classes that can be instantiated, so that they must implement what they inherit. -/
def isConcrete (kind : TypeKind) : Bool :=
  kind = concreteClass

def isInterface (kind : TypeKind) : Bool :=
  kind = interface

@[simp]
theorem ofKey?_key (kind : TypeKind) : ofKey? kind.key = some kind := by
  cases kind <;> rfl

end TypeKind

/-- The place in which a declaration names a supertype. -/
inductive Role
  | asClass
  | asInterface
  deriving DecidableEq, Repr, Inhabited

namespace Role

/-- Whether a declared type of some kind may stand in a role. -/
def accepts : Role → TypeKind → Bool
  | asClass, kind => kind.isClass
  | asInterface, kind => kind.isInterface

/-- A role in prose. -/
def phrase : Role → String
  | asClass => "a class"
  | asInterface => "an interface"

end Role

/-- How an edge joins two types. -/
inductive EdgeKind
  | extension
  | implementation
  | enclosure
  deriving DecidableEq, Repr, Inhabited

namespace EdgeKind

/-- Whether an edge makes a subtype. -/
def isInheritance : EdgeKind → Bool
  | enclosure => false
  | _ => true

def key : EdgeKind → String
  | extension => "Extends"
  | implementation => "Implements"
  | enclosure => "Encloses"

def ofKey? (word : String) : Option EdgeKind :=
  [extension, implementation, enclosure].find? (·.key = word)

end EdgeKind

end Lineage
