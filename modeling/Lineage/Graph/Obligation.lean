import Lineage.Graph.Basic

/-!
# Methods owed

A concrete class owes the methods that it inherits as abstract and does not get a body for. What the
classes of its chain declare counts by distance: a body must be nearer to the class than the nearest
abstract declaration. A method that is abstract in interfaces alone is settled by any body in the
chain or in an interface. External types and the root settle whatever they inherit.

What a class inherits is worked out from what its superclass does, once for each class, and kept in
a ledger.
-/

namespace Lineage

/-- What a class inherits from itself and the classes above it. -/
structure Inheritance where
  /-- Abstract without a nearer body. -/
  pending : List Signature := []
  /-- Abstract somewhere in the chain. -/
  abstracts : List Signature := []
  /-- With a body somewhere in the chain. -/
  concretes : List Signature := []
  /-- The interfaces that the classes of the chain implement, directly or not. -/
  interfaces : List TypeName := []
  deriving Repr

/-- What is known while the methods owed are worked out. -/
structure Ledger where
  /-- What the classes looked at so far inherit, the last one first. -/
  inheritances : List (TypeName × Inheritance) := []
  /-- What the concrete classes among them owe, in input order. -/
  obligations : List (TypeName × List Signature) := []
  deriving Repr

namespace Graph

/-- What a class inherits, given what its superclass does: its bodies settle what was pending, its
abstract methods are pending from now on. -/
def inherit (g : Graph) (d : Declaration) (above : Inheritance) : Inheritance where
  pending := above.pending.filter (· ∉ d.concretes) ++ d.abstracts
  abstracts := above.abstracts ++ d.abstracts
  concretes := above.concretes ++ d.concretes
  interfaces := (g.along .implementation).closure above.interfaces
    (g.targets d.name .implementation)

/-- The methods that a class owes, given what it inherits. -/
def owed (g : Graph) (i : Inheritance) : List Signature :=
  let interfaces := i.interfaces.filterMap g.declared?
  let bodies := i.concretes ++ interfaces.flatMap (·.concretes)
  let demanded := (interfaces.flatMap (·.abstracts)).filter fun s =>
    s ∉ i.abstracts && s ∉ bodies
  Signature.sorted (i.pending ++ demanded)

/-- The classes from a class upwards that were not looked at yet, nearest first, up to the first
type that nobody declares. The search ends after `bound` classes. -/
def unvisited (g : Graph) (known : List (TypeName × Inheritance)) : Nat → TypeName →
    List Declaration
  | 0, _ => []
  | bound + 1, name =>
    if (known.lookup name).isSome then []
    else
      match g.declared? name with
      | none => []
      | some d =>
        match g.superclass? name with
        | none => [d]
        | some super => d :: g.unvisited known bound super

/-- Looks at a class whose superclass was looked at before, unless nobody declares that. -/
def visit (g : Graph) (d : Declaration) (known : List (TypeName × Inheritance)) :
    List (TypeName × Inheritance) :=
  let above := (g.superclass? d.name).bind fun super => known.lookup super
  (d.name, g.inherit d (above.getD {})) :: known

/-- Looks at a class, and first at the classes above it that were not looked at yet. -/
def visitChain (g : Graph) (known : List (TypeName × Inheritance)) (d : Declaration) :
    List (TypeName × Inheritance) :=
  (g.unvisited known (g.declared.length + 1) d.name).foldr g.visit known

def enterClass (g : Graph) (ledger : Ledger) (d : Declaration) : Ledger :=
  let known := g.visitChain ledger.inheritances d
  match known.lookup d.name with
  | some i => ⟨known, ledger.obligations ++ [(d.name, g.owed i)]⟩
  | none => ⟨known, ledger.obligations⟩

/-- The declared classes that can be instantiated. -/
def concreteClasses (g : Graph) : List Declaration :=
  g.declared.filter (·.kind.isConcrete)

def ledger (g : Graph) : Ledger :=
  g.concreteClasses.foldl g.enterClass {}

end Graph

end Lineage
