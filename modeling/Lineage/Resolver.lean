import Lineage.TypeName

/-!
# Resolver settings

Which names stand for types outside the declarations: the root of all classes under its name and
its aliases, and the external types that are listed one by one or by the start of their names.
-/

namespace Lineage

/-- What the linker knows about types that nobody declares. -/
structure Resolver where
  rootType : TypeName := "Object"
  rootAliases : List TypeName := ["java.lang.Object"]
  builtinTypes : List TypeName :=
    ["Serializable", "Cloneable", "Comparable", "Runnable", "AutoCloseable", "Closeable",
      "Iterable", "CharSequence", "Throwable", "Exception", "RuntimeException", "Error", "Enum",
      "Record"]
  externalPrefixes : List String := ["java.", "javax."]
  allowUnresolved : Bool := false
  deriving DecidableEq, Repr, Inhabited

namespace Resolver

/-- Settings under which no external type is known. -/
def closed : Resolver :=
  { builtinTypes := [], externalPrefixes := [] }

/-- Whether a name stands for the root. -/
def isRoot (r : Resolver) (name : TypeName) : Bool :=
  r.rootType = name || r.rootAliases.contains name

/-- Whether a name stands for an external type. -/
def isExternal (r : Resolver) (name : TypeName) : Bool :=
  r.builtinTypes.contains name ||
    r.externalPrefixes.any fun start => start.toList.isPrefixOf name.toList

end Resolver

end Lineage
