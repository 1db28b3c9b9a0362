import Lineage.ExitCode
import Lineage.Report

/-!
# Checking files

Each file is a world of its own. Checking it gives a report and the exit code that it calls for; a
strict check also objects to classes that owe methods.
-/

namespace Lineage

/-- The report for a file with the exit code it calls for. -/
structure Verdict where
  report : Report
  exit : ExitCode
  deriving DecidableEq, Repr

/-- The exit code that an error in loading calls for. -/
def LoadError.exit : LoadError → ExitCode
  | unreadable .. => .ioError
  | invalid _ => .parseError
  | structural _ => .generalError

namespace Verdict

def ofHierarchy (strict : Bool) (source : String) (h : Hierarchy) : Verdict :=
  let report := Report.ofHierarchy source h
  ⟨report,
    match report.status with
    | .ok => .success
    | .incomplete => if strict then .blockingError else .success
    | .failed => .generalError⟩

/-- The verdict on what loading a source gave. -/
def ofLoaded (settings : Resolver) (strict : Bool) (source : String) :
    Except LoadError (List Declaration) → Logged Verdict
  | .error error =>
    ⟨[.rejected source error.message],
      ⟨.failure source (.ofLoadError error), error.exit⟩⟩
  | .ok declarations =>
    let built := Hierarchy.build settings declarations
    match built.value with
    | .error error =>
      ⟨built.events ++ [.buildFailed source error.message],
        ⟨.failure source (.ofStructureError error), .generalError⟩⟩
    | .ok h => ⟨built.events, ofHierarchy strict source h⟩

/-- The verdict on a file. -/
def ofFile (files : Files) (folder : Place) (settings : Resolver) (strict : Bool) (path : Path) :
    Logged Verdict :=
  let loaded := Document.load files folder path
  let judged := ofLoaded settings strict path loaded.value
  ⟨loaded.events ++ judged.events, judged.value⟩

/-- The exit code that several verdicts call for together. -/
def exitOf (verdicts : List Verdict) : ExitCode :=
  .worstOf (verdicts.map (·.exit))

end Verdict

end Lineage
