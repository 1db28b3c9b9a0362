import Lineage.Declaration
import Lineage.Digraph

/-!
# Type graphs

A graph joins types by name. It holds the declared types in input order, the external types in the
order of their first use, the root with its aliases, and the edges in the order in which references
were linked.
-/

namespace Lineage

/-- A type outside the declarations, with the role in which it was first named. -/
structure External where
  name : TypeName
  role : Role
  deriving DecidableEq, Repr

/-- Two joined types. A subtype is the source of its edge; an outer type is the source of its. -/
structure Edge where
  source : TypeName
  kind : EdgeKind
  target : TypeName
  deriving DecidableEq, Repr

/-- The types of a program and how they are joined. -/
structure Graph where
  root : TypeName
  aliases : List TypeName
  declared : List Declaration
  externals : List External := []
  edges : List Edge := []

/-- What a name stands for in a graph. -/
inductive Node
  | declared (declaration : Declaration)
  | root (name : TypeName)
  | external (entry : External)
  deriving DecidableEq, Repr

/-- The place of a node in reports. -/
inductive Category
  | concreteClass
  | abstractClass
  | interface
  | root
  | external
  deriving DecidableEq, Repr

namespace Category

/-- The word for a category in data. -/
def key : Category → String
  | concreteClass => "class"
  | abstractClass => "abstract_class"
  | interface => "interface"
  | root => "root"
  | external => "external"

/-- The word for a category in prose. -/
def label : Category → String
  | abstractClass => "abstract class"
  | category => category.key

end Category

namespace Node

def name : Node → TypeName
  | declared d => d.name
  | root name => name
  | external e => e.name

/-- The declaration behind a node. -/
def declaration? : Node → Option Declaration
  | declared d => some d
  | _ => none

def kind? (n : Node) : Option TypeKind :=
  n.declaration?.map (·.kind)

/-- The role in which an external type was first named. -/
def role? : Node → Option Role
  | external e => some e.role
  | _ => none

/-- Whether a node is no declared type. -/
def isSentinel (n : Node) : Bool :=
  n.declaration?.isNone

/-- Whether a node may stand in a role: the root is a class, an external type may be anything. -/
def fits (role : Role) : Node → Bool
  | declared d => role.accepts d.kind
  | root _ => role = .asClass
  | external _ => true

def category : Node → Category
  | declared d =>
    match d.kind with
    | .concreteClass => .concreteClass
    | .abstractClass => .abstractClass
    | .interface => .interface
  | root _ => .root
  | external _ => .external

end Node

namespace Graph

/-- How many nodes a graph has: the root, the declared types and the external ones. -/
def nodeCount (g : Graph) : Nat :=
  1 + g.declared.length + g.externals.length

/-- The names of all nodes: the root, the declared types, the external ones. -/
def nodeNames (g : Graph) : List TypeName :=
  g.root :: g.declared.map (·.name) ++ g.externals.map (·.name)

/-- The names of the declared types, in input order. -/
def typeNames (g : Graph) : List TypeName :=
  g.declared.map (·.name)

/-- Whether a name stands for the root. -/
def isRootName (g : Graph) (name : TypeName) : Bool :=
  name = g.root || g.aliases.contains name

/-- The declared type of a name. -/
def declared? (g : Graph) (name : TypeName) : Option Declaration :=
  g.declared.find? (·.name = name)

/-- The external type of a name. -/
def external? (g : Graph) (name : TypeName) : Option External :=
  g.externals.find? (·.name = name)

/-- What a name stands for. -/
def node? (g : Graph) (name : TypeName) : Option Node :=
  if g.isRootName name then some (.root g.root)
  else
    match g.declared? name with
    | some d => some (.declared d)
    | none => (g.external? name).map .external

/-- The edges of one kind, as arrows from source to target. -/
def along (g : Graph) (kind : EdgeKind) : Digraph TypeName :=
  ⟨(g.edges.filter (·.kind = kind)).map fun e => (e.source, e.target)⟩

/-- All edges between subtypes and supertypes, as arrows from sub to super. -/
def inheritance (g : Graph) : Digraph TypeName :=
  ⟨(g.edges.filter (·.kind.isInheritance)).map fun e => (e.source, e.target)⟩

/-- The edges between member types and outer types, as arrows from inner to outer. -/
def nesting (g : Graph) : Digraph TypeName :=
  ⟨(g.edges.filter (·.kind = .enclosure)).map fun e => (e.target, e.source)⟩

/-- The types that edges of one kind lead to from a type, in the order of linking. -/
def targets (g : Graph) (name : TypeName) (kind : EdgeKind) : List TypeName :=
  (g.along kind).successors name

/-- The types from which edges of one kind lead to a type, in the order of linking. -/
def sources (g : Graph) (name : TypeName) (kind : EdgeKind) : List TypeName :=
  (g.edges.filter fun e => e.kind = kind && e.target = name).map (·.source)

/-- The class that a type extends. -/
def superclass? (g : Graph) (name : TypeName) : Option TypeName :=
  (g.edges.find? fun e => e.kind = .extension && e.source = name).map (·.target)

/-- The innermost type around a type. -/
def enclosing? (g : Graph) (name : TypeName) : Option TypeName :=
  (g.edges.find? fun e => e.kind = .enclosure && e.target = name).map (·.source)

theorem superclass?_eq_head? (g : Graph) (name : TypeName) :
    g.superclass? name = (g.targets name .extension).head? := by
  simp only [superclass?, targets, along, Digraph.successors]
  induction g.edges with
  | nil => rfl
  | cons e es ih =>
    by_cases hr : e.kind = .extension
    · by_cases hs : e.source = name <;> simp [hr, hs, ih]
    · simp [hr, ih]

theorem enclosing?_eq_head? (g : Graph) (name : TypeName) :
    g.enclosing? name = (g.nesting.successors name).head? := by
  simp only [enclosing?, nesting, Digraph.successors]
  induction g.edges with
  | nil => rfl
  | cons e es ih =>
    by_cases hr : e.kind = .enclosure
    · by_cases hs : e.target = name <;> simp [hr, hs, ih]
    · simp [hr, ih]

end Graph

/-- The names met by following links from a name, at most `bound` of them. -/
def follow (link : TypeName → Option TypeName) : Nat → TypeName → List TypeName
  | 0, _ => []
  | bound + 1, name =>
    match link name with
    | none => []
    | some next => next :: follow link bound next

namespace Graph

/-- The classes above a type, nearest first. -/
def ancestors (g : Graph) (name : TypeName) : List TypeName :=
  follow g.superclass? g.edges.length name

/-- The types around a type, innermost first. -/
def enclosingChain (g : Graph) (name : TypeName) : List TypeName :=
  follow g.enclosing? g.edges.length name

/-- The interfaces that a list of types implements, directly or not: those of the first type in
breadth-first order, then what the others add. -/
def interfacesOfAll (g : Graph) (names : List TypeName) : List TypeName :=
  let implementation := g.along .implementation
  names.foldl (fun found name => implementation.closure found (implementation.successors name)) []

end Graph

end Lineage
