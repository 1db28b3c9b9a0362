import Lineage.Files
import Lineage.Json.Parser
import Lineage.Log.Event
import Lineage.Record.Json
import Lineage.StructureError

/-!
# Documents of declarations

A document is a JSON array of records, or an object with such an array under `declarations`. All
records are read before any is built, and the shape of the document is judged before whatever
follows it in the text.
-/

namespace Lineage

abbrev Document := List Record

namespace Document

def ofJson? : Json → Option Document
  | .array items => items.mapM Record.ofJson?
  | value => do
    let fields ← value.members? ["declarations"]
    Json.required fields "declarations" (Json.list? Record.ofJson?)

/-- A document as a JSON array. -/
def toJson (document : Document) : Json :=
  .array (document.map (·.toJson))

/-- A document as a JSON object. -/
def toWrappedJson (document : Document) : Json :=
  .object [("declarations", document.toJson)]

/-- Why a text is no document. -/
inductive Defect
  /-- The text is not JSON. -/
  | syntactic (fault : Json.Fault)
  /-- The JSON value has another shape. -/
  | shapeless
  deriving DecidableEq, Repr

def Defect.message : Defect → String
  | syntactic .truncated => "unexpected end of text"
  | syntactic .malformed => "text is not JSON"
  | shapeless => "data did not match any variant of untagged enum InputDocument"

/-- The document that a text holds. -/
def read (text : String) : Except Defect Document :=
  match Json.readStart none text with
  | .error fault => .error (.syntactic fault)
  | .ok (value, rest) =>
    match ofJson? value with
    | none => .error .shapeless
    | some document => if rest.isEmpty then .ok document else .error (.syntactic .malformed)

end Document

/-- Builds drafts in order, up to the first that cannot be built. -/
def Draft.buildAll : List Draft → Logged (Except StructureError (List Declaration))
  | [] => ⟨[], .ok []⟩
  | d :: ds =>
    let told := d.collapsed.map (Event.collapsed · d.declaredName)
    match d.build with
    | .error flaw => ⟨told, .error (d.error flaw)⟩
    | .ok declaration =>
      let rest := buildAll ds
      ⟨told ++ rest.events, rest.value.map (declaration :: ·)⟩

/-- Why there are no declarations. -/
inductive LoadError
  | unreadable (path : Path) (cause : FileError)
  | invalid (defect : Document.Defect)
  | structural (error : StructureError)
  deriving DecidableEq, Repr

namespace LoadError

def key : LoadError → String
  | unreadable .. => "io_error"
  | invalid _ => "invalid_json"
  | structural error => error.key

def message : LoadError → String
  | unreadable path cause => "Failed to read " ++ path ++ ": " ++ cause.message
  | invalid defect => "Invalid declaration JSON: " ++ defect.message
  | structural error => error.message

def types : LoadError → List TypeName
  | structural error => error.types
  | _ => []

end LoadError

namespace Document

/-- The declarations that a text holds. -/
def declarations (text : String) : Logged (Except LoadError (List Declaration)) :=
  match read text with
  | .error defect => ⟨[], .error (.invalid defect)⟩
  | .ok document =>
    let built := Draft.buildAll (document.map (·.toDraft))
    ⟨built.events, built.value.mapError .structural⟩

/-- The declarations that a file holds. -/
def load (files : Files) (folder : Place) (path : Path) :
    Logged (Except LoadError (List Declaration)) :=
  match files.readText folder path with
  | .error cause => ⟨[], .error (.unreadable path cause)⟩
  | .ok text =>
    let ⟨events, outcome⟩ := declarations text
    match outcome with
    | .error error => ⟨events, .error error⟩
    | .ok found => ⟨events ++ [.loaded found.length path], .ok found⟩

theorem value_declarations (text : String) :
    (declarations text).value =
      match read text with
      | .error defect => .error (.invalid defect)
      | .ok document =>
        (Draft.buildAll (document.map (·.toDraft))).value.mapError .structural := by
  unfold declarations
  cases read text <;> rfl

theorem value_load (files : Files) (folder : Place) (path : Path) :
    (load files folder path).value =
      match files.readText folder path with
      | .error cause => .error (.unreadable path cause)
      | .ok text => (declarations text).value := by
  unfold load
  cases files.readText folder path with
  | error cause => rfl
  | ok text =>
    cases hfound : (declarations text).value <;> simp only [hfound]

end Document

end Lineage
