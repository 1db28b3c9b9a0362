import Lineage.Declaration

/-!
# Records of declarations

Declarations are written down in two shapes. A native record says all that a draft holds. An
extracted record comes from a source scanner and knows methods by name only; its kind is told by the
word in its field `Type`.
-/

namespace Lineage

/-- What a source scanner says about one type. -/
structure Extract where
  className : String
  methods : List String := []
  /-- The number of source lines. -/
  lines : UInt32 := 0
  typeWord : String := "default"
  extended : Option TypeName := none
  implemented : List TypeName := []
  deriving DecidableEq, Repr

namespace Extract

/-- The kind that the type word tells. Visibilities and other words tell a class. -/
def kind (e : Extract) : TypeKind :=
  match e.typeWord with
  | "interface" => .interface
  | "abstract" => .abstractClass
  | _ => .concreteClass

/-- The draft of an extracted record. The methods of an interface are abstract and those of a class
are not, none with parameters; what an interface extends is one more interface, its first. -/
def toDraft (e : Extract) : Draft where
  name := e.className
  kind := e.kind
  superclass := if e.kind.isInterface then none else e.extended
  interfaces := if e.kind.isInterface then e.extended.toList ++ e.implemented else e.implemented
  methods := e.methods.map fun name => ⟨⟨name, []⟩, e.kind.isInterface⟩
  isFinal := e.typeWord = "final"

end Extract

/-- A record of either shape. -/
inductive Record
  | native (draft : Draft)
  | extracted (extract : Extract)
  deriving DecidableEq, Repr

def Record.toDraft : Record → Draft
  | native draft => draft
  | extracted extract => extract.toDraft

end Lineage
