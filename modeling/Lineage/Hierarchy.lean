import Lineage.Graph.Link
import Lineage.Graph.Obligation
import Lineage.Graph.Validity

/-!
# Type hierarchies

`Hierarchy.build` links declarations, refuses what makes no hierarchy, and works out the methods
owed. Questions about a hierarchy name its types; a name that stands for no type is an error, and
the aliases of the root and the external types are types too.
-/

namespace Lineage

/-- A valid graph with the methods that each concrete class owes. -/
structure Hierarchy where
  graph : Graph
  obligations : List (TypeName × List Signature)

namespace Hierarchy

/-- What is told about working out the methods owed. -/
def computed (ledger : Ledger) : Event :=
  .computed (ledger.obligations.countP fun entry => !entry.2.isEmpty) ledger.obligations.length
    ledger.inheritances.length

/-- The hierarchy of some declarations. -/
def build (settings : Resolver) (declarations : List Declaration) :
    Logged (Except StructureError Hierarchy) :=
  match Linking.run settings declarations with
  | .error failure => ⟨failure.events, .error failure.error⟩
  | .ok linking =>
    let g := linking.graph
    let events := linking.events ++ [.linked declarations.length]
    match g.fault? with
    | some error => ⟨events, .error error⟩
    | none =>
      let ledger := g.ledger
      ⟨events ++ [.validated g.declared.length, computed ledger], .ok ⟨g, ledger.obligations⟩⟩

def rootName (h : Hierarchy) : TypeName :=
  h.graph.root

/-- The declared types, in input order. -/
def typeNames (h : Hierarchy) : List TypeName :=
  h.graph.typeNames

/-- Whether a name stands for a type. -/
def contains (h : Hierarchy) (name : TypeName) : Bool :=
  (h.graph.node? name).isSome

def node (h : Hierarchy) (name : TypeName) : Except UnknownType Node :=
  match h.graph.node? name with
  | some node => .ok node
  | none => .error ⟨name⟩

/-- The name that a type has in the graph: an alias stands for the root. -/
def canonical (h : Hierarchy) (name : TypeName) : Except UnknownType TypeName :=
  (h.node name).map (·.name)

/-- The declaration of a type, if somebody declares it. -/
def declaration (h : Hierarchy) (name : TypeName) : Except UnknownType (Option Declaration) :=
  (h.node name).map (·.declaration?)

def kindOf (h : Hierarchy) (name : TypeName) : Except UnknownType (Option TypeKind) :=
  (h.node name).map (·.kind?)

/-- The types above a type, itself first. -/
def supertypesOf (h : Hierarchy) (name : TypeName) : Except UnknownType (List TypeName) :=
  (h.canonical name).map fun type => h.graph.inheritance.closure [] [type]

/-- Whether a type is another one or below it. -/
def isSubtypeOf (h : Hierarchy) (sub super : TypeName) : Except UnknownType Bool := do
  let above ← h.supertypesOf sub
  let type ← h.canonical super
  return above.contains type

/-- The class that a type extends. -/
def superclassOf (h : Hierarchy) (name : TypeName) : Except UnknownType (Option TypeName) :=
  (h.canonical name).map h.graph.superclass?

/-- The classes above a type, nearest first. -/
def ancestorsOf (h : Hierarchy) (name : TypeName) : Except UnknownType (List TypeName) :=
  (h.canonical name).map h.graph.ancestors

/-- The interfaces of a type and of the classes above it, in the order of discovery. -/
def interfacesOf (h : Hierarchy) (name : TypeName) : Except UnknownType (List TypeName) :=
  (h.canonical name).map fun type =>
    h.graph.interfacesOfAll (type :: h.graph.ancestors type)

/-- The types around a type, innermost first. -/
def enclosingChainOf (h : Hierarchy) (name : TypeName) : Except UnknownType (List TypeName) :=
  (h.canonical name).map h.graph.enclosingChain

/-- The types directly below a type, those that extend it first. -/
def subtypesOf (h : Hierarchy) (name : TypeName) : Except UnknownType (List TypeName) :=
  (h.canonical name).map fun type =>
    (h.graph.sources type .extension ++ h.graph.sources type .implementation).eraseDups

/-- The methods that a type owes. Only concrete classes owe any. -/
def owedBy (h : Hierarchy) (name : TypeName) : Except UnknownType (List Signature) :=
  (h.canonical name).map fun type => (h.obligations.lookup type).getD []

/-- The classes that owe methods, in input order. -/
def incompleteClasses (h : Hierarchy) : List (TypeName × List Signature) :=
  h.obligations.filter fun entry => !entry.2.isEmpty

end Hierarchy

end Lineage
