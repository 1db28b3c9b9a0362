import Lineage.Json
import Lineage.Record.Basic

/-!
# Records in JSON

How signatures, methods and records are written in JSON, and how they are read. Readers pass over
members that they do not know, refuse a member they know that comes twice, and take the default of
one that is missing. A signature or a record may also be an array of its fields in order.
-/

namespace Lineage

namespace Json

/-- The members of an object that have one of some names, unless one of them comes twice. -/
def members? (names : List String) : Json → Option (List (String × Json))
  | object members =>
    let known := members.filter fun (key, _) => names.contains key
    if (known.map (·.1)).eraseDups.length = known.length then some known else none
  | _ => none

/-- The fields of a record: the members of an object, or the items of an array under the names of
the fields in order. -/
def fields? (names : List String) : Json → Option (List (String × Json))
  | array items => if items.length ≤ names.length then some (names.zip items) else none
  | value => value.members? names

/-- A field that must be there. -/
def required {α : Type} (fields : List (String × Json)) (key : String) (decode : Json → Option α) :
    Option α :=
  (fields.lookup key).bind decode

/-- A field that has a default. -/
def defaulted {α : Type} (fields : List (String × Json)) (key : String) (decode : Json → Option α)
    (default : α) : Option α :=
  match fields.lookup key with
  | none => some default
  | some value => decode value

/-- An array of values that are all readable. -/
def list? {α : Type} (decode : Json → Option α) : Json → Option (List α)
  | array items => items.mapM decode
  | _ => none

def word32? : Json → Option UInt32
  | integer value =>
    if 0 ≤ value ∧ value.toNat < UInt32.size then some (UInt32.ofNat value.toNat) else none
  | _ => none

end Json

open Json

namespace Signature

def fieldNames : List String := ["name", "params"]

def toJson (s : Signature) : Json :=
  .object [("name", .string s.name), ("params", .strings s.params)]

def ofFields? (fields : List (String × Json)) : Option Signature := do
  let name ← required fields "name" string?
  let params ← defaulted fields "params" strings? []
  return { name, params }

def ofJson? (value : Json) : Option Signature :=
  (value.fields? fieldNames).bind ofFields?

end Signature

namespace Method

def fieldNames : List String := Signature.fieldNames ++ ["abstract"]

def toJson (m : Method) : Json :=
  .object
    [("name", .string m.signature.name), ("params", .strings m.signature.params),
      ("abstract", .boolean m.isAbstract)]

def ofJson? (value : Json) : Option Method := do
  let fields ← value.members? fieldNames
  let signature ← Signature.ofFields? fields
  let isAbstract ← defaulted fields "abstract" boolean? false
  return { signature, isAbstract }

end Method

def TypeKind.ofJson? (value : Json) : Option TypeKind :=
  value.word?.bind ofKey?

namespace Draft

def fieldNames : List String :=
  ["name", "kind", "superclass", "interfaces", "enclosing_type", "methods", "final"]

/-- A native record in JSON. Missing types are left out, and so is an empty list of interfaces. -/
def toJson (d : Draft) : Json :=
  .object <|
    [("name", .string d.name), ("kind", .string d.kind.key)]
      ++ d.superclass.toList.map (fun name => ("superclass", .string name))
      ++ (if d.interfaces.isEmpty then [] else [("interfaces", .strings d.interfaces)])
      ++ d.enclosingType.toList.map (fun name => ("enclosing_type", .string name))
      ++ [("methods", .array (d.methods.map (·.toJson))), ("final", .boolean d.isFinal)]

def ofJson? (value : Json) : Option Draft := do
  let fields ← value.fields? fieldNames
  let name ← required fields "name" string?
  let kind ← required fields "kind" TypeKind.ofJson?
  let superclass ← defaulted fields "superclass" optional? none
  let interfaces ← defaulted fields "interfaces" strings? []
  let enclosingType ← defaulted fields "enclosing_type" optional? none
  let methods ← defaulted fields "methods" (list? Method.ofJson?) []
  let isFinal ← defaulted fields "final" boolean? false
  return { name, kind, superclass, interfaces, enclosingType, methods, isFinal }

end Draft

namespace Extract

def fieldNames : List String :=
  ["Classname", "Methods", "Loc", "Type", "Extends", "Implements"]

def toJson (e : Extract) : Json :=
  .object
    [("Classname", .string e.className), ("Methods", .strings e.methods),
      ("Loc", .natural e.lines.toNat), ("Type", .string e.typeWord),
      ("Extends", .optional e.extended), ("Implements", .strings e.implemented)]

def ofJson? (value : Json) : Option Extract := do
  let fields ← value.fields? fieldNames
  let className ← required fields "Classname" string?
  let methods ← defaulted fields "Methods" strings? []
  let lines ← defaulted fields "Loc" word32? 0
  let typeWord ← defaulted fields "Type" string? "default"
  let extended ← defaulted fields "Extends" optional? none
  let implemented ← defaulted fields "Implements" strings? []
  return { className, methods, lines, typeWord, extended, implemented }

end Extract

namespace Record

def toJson : Record → Json
  | native draft => draft.toJson
  | extracted extract => extract.toJson

/-- The record that a JSON value stands for: a native one if it can be read so. -/
def ofJson? (value : Json) : Option Record :=
  ((Draft.ofJson? value).map native).or ((Extract.ofJson? value).map extracted)

end Record

/-- A declaration in JSON, with all its fields. -/
def Declaration.toJson (d : Declaration) : Json :=
  .object
    [("name", .string d.name), ("kind", .string d.kind.key),
      ("superclass", .optional d.superclass), ("interfaces", .strings d.interfaces),
      ("enclosing_type", .optional d.enclosingType),
      ("methods", .array (d.methods.map (·.toJson))), ("is_final", .boolean d.isFinal)]

end Lineage
