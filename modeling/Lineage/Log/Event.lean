import Lineage.Kind
import Lineage.Signature
import Lineage.TypeName

/-!
# Log events

What the library tells about its work. An event knows its stage and its level, and has one wording.
-/

namespace Lineage

/-- How much an event matters, the most important level first. -/
inductive Level
  | error
  | warn
  | info
  | debug
  | trace
  deriving DecidableEq, Repr, Inhabited

namespace Level

/-- The rank of a level: more detail, higher rank. -/
def rank : Level → Nat
  | error => 1
  | warn => 2
  | info => 3
  | debug => 4
  | trace => 5

def name : Level → String
  | error => "ERROR"
  | warn => "WARN"
  | info => "INFO"
  | debug => "DEBUG"
  | trace => "TRACE"

end Level

/-- A part of the work, from reading a file to answering a question. -/
inductive Stage
  | input
  | declaration
  | builder
  | validate
  | obligations
  | check
  | query
  deriving DecidableEq, Repr, Inhabited

namespace Stage

/-- All stages in the order of the work. -/
def all : List Stage := [input, declaration, builder, validate, obligations, check, query]

def name : Stage → String
  | input => "input"
  | declaration => "declaration"
  | builder => "builder"
  | validate => "validate"
  | obligations => "obligations"
  | check => "check"
  | query => "query"

/-- The name under which a log filter knows a stage. -/
def target : Stage → String
  | input => "classgraph::input"
  | declaration => "classgraph::declaration"
  | builder => "classgraph::graph::builder"
  | validate => "classgraph::graph::validate"
  | obligations => "classgraph::graph::obligations"
  | check => "classgraph::cli::commands::check"
  | query => "classgraph::cli::commands::query"

def ofName? (text : String) : Option Stage :=
  all.find? (·.name = text)

end Stage

/-- Something worth telling. -/
inductive Event
  /-- A method was listed again in the declaration of `owner`. -/
  | collapsed (signature : Signature) (owner : TypeName)
  /-- A file was read. -/
  | loaded (count : Nat) (path : String)
  /-- A reference stands for an external type that the configuration knows. -/
  | resolvedExternal (name : TypeName) (role : Role)
  /-- A reference stands for nothing known, and is taken for an external type. -/
  | toleratedExternal (name source : TypeName)
  /-- An external type is named in another role than at first. -/
  | roleConflict (name : TypeName) (role : Role) (source : TypeName) (first : Role)
  /-- All references of the declarations are linked. -/
  | linked (count : Nat)
  /-- The graph is free of cycles and misplaced types. -/
  | validated (count : Nat)
  /-- The methods still owed are known. -/
  | computed (incomplete total states : Nat)
  /-- A file has no declarations to check. -/
  | rejected (source message : String)
  /-- The declarations of a file make no hierarchy. -/
  | buildFailed (source message : String)
  /-- All files are checked. -/
  | checked (count : Nat)
  /-- A question has an answer. -/
  | answered (question answer : String)
  deriving DecidableEq, Repr

namespace Event

def stage : Event → Stage
  | collapsed .. => .declaration
  | loaded .. => .input
  | resolvedExternal .. | toleratedExternal .. | roleConflict .. | linked .. => .builder
  | validated .. => .validate
  | computed .. => .obligations
  | rejected .. | buildFailed .. | checked .. => .check
  | answered .. => .query

/-- How much an event matters. -/
def level : Event → Level
  | toleratedExternal .. | roleConflict .. | rejected .. => .warn
  | checked .. => .info
  | _ => .debug

/-- What an event says. -/
def text : Event → String
  | collapsed signature owner =>
    "collapsed duplicate method: " ++ signature.text ++ " on " ++ owner
  | loaded count path => "loaded: " ++ toString count ++ " declarations from " ++ path
  | resolvedExternal name role => "'" ++ name ++ "' resolved as external " ++ role.phrase
  | toleratedExternal name source =>
    "unresolved reference '" ++ name ++ "' in '" ++ source ++ "' treated as external"
  | roleConflict name role source first =>
    "external type '" ++ name ++ "' used as " ++ role.phrase ++ " by '" ++ source
      ++ "' but first seen as " ++ first.phrase
  | linked count => "linked: " ++ toString count ++ " declarations"
  | validated count => "passed: " ++ toString count ++ " declared types"
  | computed incomplete total states =>
    "computed: " ++ toString incomplete ++ " of " ++ toString total
      ++ " concrete classes incomplete, " ++ toString states ++ " chain states"
  | rejected source message => source ++ ": " ++ message
  | buildFailed source message => "build failed: " ++ source ++ ": " ++ message
  | checked count => "done: " ++ toString count ++ " files"
  | answered question answer => question ++ ": " ++ answer

def fieldNames : List String := ["message"]

/-- What an event says, after the name of its stage. -/
def message (e : Event) : String :=
  "[" ++ e.stage.name ++ "] " ++ e.text

end Event

/-- A value with the events told while making it. -/
structure Logged (α : Type) where
  events : List Event
  value : α

end Lineage
