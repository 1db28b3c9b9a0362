import Lineage.Graph.Basic

/-!
# Scopes of names

A reference need not be the full name of a type. It may name a member of the referring type or of a
type around it, or a type of the same package. `Graph.lookup` finds the declared type meant.
-/

namespace Lineage

namespace Graph

/-- The name of the type around a name: what its declaration says, else what the name implies. -/
def outerName (g : Graph) (name : TypeName) : Option TypeName :=
  ((g.declared? name).bind (·.enclosingType)).or (TypeName.impliedOuter name)

/-- The member that a reference names in the scope of a type or, going outwards, in the scopes
around it. At most `bound` scopes are tried. -/
def lookupMember (g : Graph) (reference : TypeName) : Nat → TypeName → Option Declaration
  | 0, _ => none
  | bound + 1, scope =>
    match g.declared? (TypeName.member scope reference) with
    | some d => some d
    | none =>
      match g.outerName scope with
      | none => none
      | some outer => g.lookupMember reference bound outer

/-- The type of the referring type's package that an unqualified reference names. -/
def lookupPackage (g : Graph) (source reference : TypeName) : Option Declaration :=
  if reference.toList.contains '.' then none
  else
    (TypeName.package source).bind fun package =>
      g.declared? (TypeName.qualify package reference)

/-- The declared type that a reference in the declaration of `source` means: the type of that name,
else a member in scope, else a type of the package. As many scopes are tried as there are nodes,
and one more. -/
def lookup (g : Graph) (source reference : TypeName) : Option Declaration :=
  ((g.declared? reference).or (g.lookupMember reference (g.nodeCount + 1) source)).or
    (g.lookupPackage source reference)

end Graph

end Lineage
