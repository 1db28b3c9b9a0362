import Lineage.Text.Split

/-!
# Names of types

A type is known by its qualified name. Packages end at the last dot of a name, and a member type is
written after its outer type with a dollar sign between them: `app.shape.Circle$Arc`.
-/

namespace Lineage

/-- The qualified name of a type. -/
abbrev TypeName := String

namespace TypeName

/-- The package of a type: the part of the name before the last dot. -/
def package (name : TypeName) : Option String :=
  (splitLast '.' name).map (·.1)

/-- The name of a type without its package and outer types. -/
def simpleName (name : TypeName) : String :=
  let unqualified := (splitLast '.' name).elim name (·.2)
  (splitLast '$' unqualified).elim unqualified (·.2)

/-- The outer type that a name implies: the part before the last dollar sign. -/
def impliedOuter (name : TypeName) : Option TypeName :=
  (splitLast '$' name).map (·.1)

/-- The name of a member type of `outer`. -/
def member (outer reference : TypeName) : TypeName :=
  outer ++ "$" ++ reference

def qualify (package reference : String) : TypeName :=
  package ++ "." ++ reference

end TypeName

end Lineage
