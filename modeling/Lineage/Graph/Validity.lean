import Lineage.Graph.Basic
import Lineage.StructureError

/-!
# Valid graphs

A linked graph makes a hierarchy if no type is its own supertype, no type extends two classes, every
supertype may stand where it is named, and no type lies around itself. The checks run in this order
and the first failure counts.
-/

namespace Lineage

namespace Graph

/-- A cycle of inheritance. -/
def inheritanceCycle? (g : Graph) : Option StructureError :=
  (g.inheritance.findCycle g.typeNames).map .inheritanceCycle

/-- A type with two superclasses. -/
def multipleInheritance? (g : Graph) : Option StructureError :=
  (g.nodeNames.find? fun name => (g.targets name .extension).length > 1).map .multipleInheritance

/-- Whether the type of a name may stand in a role. -/
def fits (g : Graph) (role : Role) (name : TypeName) : Bool :=
  (g.node? name).any (·.fits role)

/-- The first supertype that a declared type names in the wrong role. -/
def kindMismatch? (g : Graph) : Option StructureError :=
  g.typeNames.findSome? fun name =>
    [(EdgeKind.extension, Role.asClass), (.implementation, .asInterface)].findSome?
      fun (kind, role) =>
        ((g.targets name kind).find? fun target => !g.fits role target).map
          fun target => .kindMismatch name target role

/-- A cycle of types around each other. -/
def enclosingCycle? (g : Graph) : Option StructureError :=
  (g.nesting.findCycle g.typeNames).map .enclosingCycle

/-- The first thing that keeps a graph from being a hierarchy. -/
def fault? (g : Graph) : Option StructureError :=
  g.inheritanceCycle?.or (g.multipleInheritance?.or (g.kindMismatch?.or g.enclosingCycle?))

end Graph

end Lineage
