import Lineage.Graph.Scope
import Lineage.Log.Event
import Lineage.Resolver
import Lineage.StructureError

/-!
# Linking

All declarations become nodes first, so that a type may name one declared later. Then the
references are resolved in order, and each becomes an edge. A reference that means no declared type
stands for the root or for an external type, which joins the graph when it is first named.
-/

namespace Lineage

/-- What a reference to a supertype stands for. -/
inductive Resolution
  /-- A declared type. -/
  | declared (name : TypeName)
  /-- The root. -/
  | root
  /-- An external type that is in the graph already. -/
  | known (entry : External)
  /-- An external type of the settings, not yet in the graph. -/
  | configured
  /-- Nothing known, but taken for an external type. -/
  | tolerated
  /-- Nothing known. -/
  | unresolved
  deriving DecidableEq, Repr

/-- Work on a graph with what was told about it so far. -/
structure Linking where
  graph : Graph
  events : List Event := []

/-- Work given up, with what was told about it until then. -/
structure Linking.Failure where
  error : StructureError
  events : List Event

namespace Graph

/-- What a reference in the declaration of `source` stands for. Declared types come first, whatever
the settings say about the name. -/
def resolve (g : Graph) (settings : Resolver) (source reference : TypeName) : Resolution :=
  match g.lookup source reference with
  | some d => .declared d.name
  | none =>
    if settings.isRoot reference then .root
    else
      match g.external? reference with
      | some entry => .known entry
      | none =>
        if settings.isExternal reference then .configured
        else if settings.allowUnresolved then .tolerated
        else .unresolved

def join (g : Graph) (source : TypeName) (kind : EdgeKind) (target : TypeName) : Graph :=
  { g with edges := g.edges ++ [⟨source, kind, target⟩] }

/-- The graph with one more external type. As a class it is put under the root at once. -/
def enter (g : Graph) (name : TypeName) (role : Role) : Graph :=
  let grown := { g with externals := g.externals ++ [⟨name, role⟩] }
  match role with
  | .asClass => grown.join name .extension g.root
  | .asInterface => grown

/-- The graph after an external type is named again. One that was an interface so far and is now
extended is put under the root. -/
def reuse (g : Graph) (entry : External) (role : Role) : Graph :=
  if entry.role ≠ role ∧ role = .asClass ∧ g.superclass? entry.name = none then
    g.join entry.name .extension g.root
  else g

/-- The graph of some declarations before any reference is linked. No two declarations may share a
name, and none may have a name of the root. -/
def ofDeclarations (settings : Resolver) (declarations : List Declaration) :
    Except StructureError Graph :=
  declarations.foldlM (fun g d =>
    if g.isRootName d.name || (g.declared? d.name).isSome then .error (.duplicate d.name)
    else .ok { g with declared := g.declared ++ [d] })
    { root := settings.rootType, aliases := settings.rootAliases, declared := [] }

end Graph

namespace Linking

/-- Links one supertype reference of `source`: the name it stands for, and the work after it. -/
def supertype (l : Linking) (settings : Resolver) (source reference : TypeName) (role : Role) :
    Except Failure (TypeName × Linking) :=
  let g := l.graph
  match g.resolve settings source reference with
  | .declared name => .ok (name, l)
  | .root => .ok (g.root, l)
  | .known entry =>
    let told := if entry.role = role then [] else [.roleConflict entry.name role source entry.role]
    .ok (entry.name, ⟨g.reuse entry role, l.events ++ told⟩)
  | .configured =>
    .ok (reference, ⟨g.enter reference role, l.events ++ [.resolvedExternal reference role]⟩)
  | .tolerated =>
    .ok (reference, ⟨g.enter reference role, l.events ++ [.toleratedExternal reference source]⟩)
  | .unresolved => .error ⟨.unresolved reference source, l.events⟩

def join (l : Linking) (source : TypeName) (kind : EdgeKind) (target : TypeName) : Linking :=
  { l with graph := l.graph.join source kind target }

/-- Links the superclass of a class: the one it names, or else the root. -/
def superclass (settings : Resolver) (d : Declaration) (l : Linking) : Except Failure Linking :=
  if d.kind.isClass then
    match d.superclass with
    | none => .ok (l.join d.name .extension l.graph.root)
    | some reference => do
      let (target, l) ← l.supertype settings d.name reference .asClass
      .ok (l.join d.name .extension target)
  else .ok l

def interface (settings : Resolver) (d : Declaration) (l : Linking) (reference : TypeName) :
    Except Failure Linking := do
  let (target, l) ← l.supertype settings d.name reference .asInterface
  .ok (l.join d.name .implementation target)

/-- Links the type around a type. The one that a declaration names must be declared; the one that
its name implies counts only if it is. -/
def enclosing (d : Declaration) (l : Linking) : Except Failure Linking :=
  match d.enclosingType with
  | some reference =>
    match l.graph.lookup d.name reference with
    | some outer => .ok (l.join outer.name .enclosure d.name)
    | none => .error ⟨.unresolved reference d.name, l.events⟩
  | none =>
    match (TypeName.impliedOuter d.name).bind l.graph.declared? with
    | some outer => .ok (l.join outer.name .enclosure d.name)
    | none => .ok l

/-- Links all references of one declaration: superclass, interfaces, enclosing type. -/
def declaration (settings : Resolver) (l : Linking) (d : Declaration) : Except Failure Linking := do
  let l ← l.superclass settings d
  let l ← d.interfaces.foldlM (fun l reference => l.interface settings d reference) l
  l.enclosing d

/-- Links declarations into a graph. -/
def run (settings : Resolver) (declarations : List Declaration) : Except Failure Linking :=
  match Graph.ofDeclarations settings declarations with
  | .error error => .error ⟨error, []⟩
  | .ok g => declarations.foldlM (declaration settings) ⟨g, []⟩

end Linking

end Lineage
