import Lineage.Json
import Lineage.Report

/-!
# Reports in JSON
-/

namespace Lineage

/-- What a report says about one type, in JSON. That a type is final is said only if it is. -/
def TypeReport.toJson (t : TypeReport) : Json :=
  .object <|
    [("name", .string t.name), ("category", .string t.category.key)]
      ++ (if t.isFinal then [("is_final", .boolean true)] else [])
      ++ [("superclass", .optional t.superclass), ("ancestors", .strings t.ancestors),
        ("interfaces", .strings t.interfaces), ("enclosing", .strings t.enclosing),
        ("unresolved_abstracts", .strings (t.owed.map (·.text)))]

def HierarchyReport.toJson (h : HierarchyReport) : Json :=
  .object
    [("types", .array (h.types.map (·.toJson))), ("incomplete_classes", .natural h.incomplete)]

def ErrorReport.toJson (e : ErrorReport) : Json :=
  .object
    [("kind", .string e.key), ("message", .string e.message), ("types", .strings e.types)]

def Report.toJson (r : Report) : Json :=
  .object
    [("source", .string r.source), ("status", .string r.status.key),
      match r.outcome with
      | .failed error => ("error", error.toJson)
      | .built report => ("graph", report.toJson)]

end Lineage
