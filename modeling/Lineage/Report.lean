import Lineage.Document
import Lineage.Hierarchy

/-!
# Reports

A report tells the outcome for one source: every declared type with what is known of it, or the
error that left no hierarchy.
-/

namespace Lineage

/-- What a report says about one declared type. -/
structure TypeReport where
  name : TypeName
  category : Category
  isFinal : Bool
  superclass : Option TypeName
  ancestors : List TypeName
  interfaces : List TypeName
  enclosing : List TypeName
  owed : List Signature
  deriving DecidableEq, Repr

/-- What a report says about a hierarchy. -/
structure HierarchyReport where
  types : List TypeReport
  /-- How many classes owe methods. -/
  incomplete : Nat
  deriving DecidableEq, Repr

/-- What a report says about an error. -/
structure ErrorReport where
  key : String
  message : String
  types : List TypeName
  deriving DecidableEq, Repr

/-- The outcome for one source. -/
inductive Outcome
  | built (report : HierarchyReport)
  | failed (error : ErrorReport)
  deriving DecidableEq, Repr

/-- The outcome with the source that it is for. -/
structure Report where
  source : String
  outcome : Outcome
  deriving DecidableEq, Repr

/-- The outcome in a word. -/
inductive Status
  | ok
  | incomplete
  | failed
  deriving DecidableEq, Repr

def Status.key : Status → String
  | ok => "ok"
  | incomplete => "incomplete"
  | failed => "failed"

/-- The mark of a status at the start of a report. -/
def Status.mark : Status → String
  | ok => "✓"
  | incomplete => "!"
  | failed => "✗"

namespace ErrorReport

def ofStructureError (e : StructureError) : ErrorReport :=
  ⟨e.key, e.message, e.types⟩

def ofUnknownType (e : UnknownType) : ErrorReport :=
  ⟨UnknownType.key, e.message, [e.name]⟩

def ofLoadError (e : LoadError) : ErrorReport :=
  ⟨e.key, e.message, e.types⟩

end ErrorReport

namespace Hierarchy

/-- What is known of a declared type. -/
def typeReport (h : Hierarchy) (d : Declaration) : Except UnknownType TypeReport := do
  let node ← h.node d.name
  return {
    name := d.name
    category := node.category
    isFinal := d.isFinal
    superclass := ← h.superclassOf d.name
    ancestors := ← h.ancestorsOf d.name
    interfaces := ← h.interfacesOf d.name
    enclosing := ← h.enclosingChainOf d.name
    owed := ← h.owedBy d.name }

/-- What is known of all declared types. -/
def report (h : Hierarchy) : Except UnknownType HierarchyReport := do
  let types ← h.graph.declared.mapM h.typeReport
  return ⟨types, h.incompleteClasses.length⟩

end Hierarchy

namespace Report

def failure (source : String) (error : ErrorReport) : Report :=
  ⟨source, .failed error⟩

def ofHierarchy (source : String) (h : Hierarchy) : Report :=
  match h.report with
  | .ok report => ⟨source, .built report⟩
  | .error e => failure source (.ofUnknownType e)

/-- The status of a report: a hierarchy is incomplete if some class owes methods. -/
def status (r : Report) : Status :=
  match r.outcome with
  | .failed _ => .failed
  | .built report => if report.incomplete = 0 then .ok else .incomplete

end Report

end Lineage
