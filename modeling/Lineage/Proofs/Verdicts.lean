import Lineage.Check
import Lineage.Proofs.Documents
import Lineage.Proofs.OwedMethods

/-!
# Verdicts

A report on a hierarchy that was built never fails: its rows are the declared types in input order
(`Built.report_eq`), and the classes that owe methods are counted as often as they have a row that
says so (`Built.length_incompleteClasses`). Checking a file therefore ends in one of five ways
(`Verdict.value_ofFile`), each with its report, its status and its exit code (`Verdict.Sound`), and
of the exit codes of many files the worst is left (`ExitCode.Worst`).
-/

namespace Lineage

/-! ## Rows -/

theorem mapM_eq_ok_map {α β ε : Type} {f : α → Except ε β} {g : α → β} {xs : List α}
    (h : ∀ x ∈ xs, f x = .ok (g x)) : xs.mapM f = .ok (xs.map g) := by
  induction xs with
  | nil => rfl
  | cons x xs ih =>
    rw [List.mapM_cons, h x List.mem_cons_self, ih fun y hy => h y (List.mem_cons_of_mem x hy)]
    rfl

namespace Hierarchy

/-- The row of a declared type in the report on a hierarchy. -/
def row (h : Hierarchy) (d : Declaration) : TypeReport where
  name := d.name
  category := (Node.declared d).category
  isFinal := d.isFinal
  superclass := h.graph.superclass? d.name
  ancestors := h.graph.ancestors d.name
  interfaces := h.graph.interfacesOfAll (d.name :: h.graph.ancestors d.name)
  enclosing := h.graph.enclosingChain d.name
  owed := (h.obligations.lookup d.name).getD []

namespace Built

variable {settings : Resolver} {declarations : List Declaration}
  {links : List (Declaration × Links)} {h : Hierarchy}

theorem node_of_declared (hb : Built settings declarations links h) {d : Declaration}
    (hd : d ∈ declarations) : h.node d.name = .ok (.declared d) := by
  have hroot : h.graph.isRootName d.name = false :=
    (hb.linkage.linked.isRootName d.name).trans (hb.linkage.named.noRoot d hd)
  unfold node Graph.node?
  rw [hroot, hb.linkage.declared?_eq_some_iff.2 ⟨hd, rfl⟩]
  rfl

/-- No query for the row of a declared type fails. -/
theorem typeReport_eq (hb : Built settings declarations links h) {d : Declaration}
    (hd : d ∈ declarations) : h.typeReport d = .ok (h.row d) := by
  have hcanonical := hb.canonical_of_declared hd
  have henclosing : h.enclosingChainOf d.name = .ok (h.graph.enclosingChain d.name) := by
    unfold enclosingChainOf
    rw [hcanonical]
    rfl
  have howed : h.owedBy d.name = .ok ((h.obligations.lookup d.name).getD []) := by
    unfold owedBy
    rw [hcanonical]
    rfl
  unfold typeReport
  rw [hb.node_of_declared hd, superclassOf_of_canonical hcanonical,
    ancestorsOf_of_canonical hcanonical, interfacesOf_of_canonical hcanonical, henclosing, howed]
  rfl

theorem mapM_typeReport (hb : Built settings declarations links h) :
    declarations.mapM h.typeReport = .ok (declarations.map h.row) :=
  mapM_eq_ok_map fun _ => hb.typeReport_eq

/-- The report on a hierarchy has one row for each declaration, in input order. -/
theorem report_eq (hb : Built settings declarations links h) :
    h.report = .ok ⟨declarations.map h.row, h.incompleteClasses.length⟩ := by
  unfold report
  rw [hb.linkage.linked.declared, hb.mapM_typeReport]
  rfl

/-- The row of a type shows what it owes as a concrete class, if it is one. -/
theorem owed_row (hb : Built settings declarations links h) {d : Declaration}
    (hd : d ∈ declarations) : (h.row d).owed =
      if d.kind.isConcrete then h.graph.owed (h.graph.inherited d) else [] := by
  show (h.obligations.lookup d.name).getD [] = _
  rw [hb.lookup_obligations, hb.linkage.declared?_eq_some_iff.2 ⟨hd, rfl⟩, Option.filter_some]
  split_ifs <;> rfl

/-- The count goes over the obligations, which only concrete classes have; the rows show those of
all declared types. -/
theorem length_incompleteClasses (hb : Built settings declarations links h) :
    h.incompleteClasses.length = (declarations.map h.row).countP fun row => row.owed ≠ [] := by
  unfold incompleteClasses
  rw [← List.countP_eq_length_filter, hb.obligations_eq, Graph.concreteClasses, List.countP_map,
    List.countP_filter, hb.linkage.linked.declared, List.countP_map]
  refine List.countP_congr fun d hd => ?_
  simp only [Function.comp_apply, hb.owed_row hd]
  unfold Graph.obligation
  cases d.kind.isConcrete <;> simp

end Built

end Hierarchy

/-! ## The worst of many codes -/

namespace ExitCode

/-- What is left of many codes: success if all are, and otherwise the one of the smallest number
among those that are not. -/
structure Worst (codes : List ExitCode) (code : ExitCode) : Prop where
  success_iff : code = success ↔ ∀ other ∈ codes, other = success
  mem : code ≠ success → code ∈ codes
  le : code ≠ success → ∀ other ∈ codes, other ≠ success → code.number ≤ other.number

theorem worst_eq_success_iff {a b : ExitCode} :
    a.worst b = success ↔ a = success ∧ b = success := by
  cases a <;> cases b <;> decide

theorem worst_eq_or (a b : ExitCode) :
    (a ≠ success ∧ a.worst b = a) ∨ a.worst b = b := by
  cases a <;> cases b <;> decide

theorem number_worst_le {a b : ExitCode} (h : a ≠ success) : (a.worst b).number ≤ a.number := by
  cases a <;> cases b <;> first | exact absurd rfl h | decide

namespace Worst

variable {codes : List ExitCode} {worst : ExitCode}

theorem nil : Worst [] success :=
  ⟨by simp, fun h => absurd rfl h, fun h => absurd rfl h⟩

theorem cons (h : Worst codes worst) (code : ExitCode) :
    Worst (code :: codes) (code.worst worst) where
  success_iff := by
    rw [worst_eq_success_iff, h.success_iff, List.forall_mem_cons]
  mem := by
    intro hne
    rcases worst_eq_or code worst with ⟨-, heq⟩ | heq
    · exact heq.symm ▸ List.mem_cons_self
    · rw [heq] at hne ⊢
      exact List.mem_cons_of_mem code (h.mem hne)
  le := by
    rintro - other hother hne
    rcases List.mem_cons.1 hother with rfl | hother
    · exact number_worst_le hne
    · have hworst : worst ≠ success := fun heq => hne (h.success_iff.1 heq other hother)
      calc (code.worst worst).number = (worst.worst code).number := by rw [worst_comm]
        _ ≤ worst.number := number_worst_le hworst
        _ ≤ other.number := h.le hworst other hother hne

end Worst

theorem worstOf_cons (code : ExitCode) (codes : List ExitCode) :
    worstOf (code :: codes) = code.worst (worstOf codes) := by
  have : Std.Associative worst := ⟨worst_assoc⟩
  unfold worstOf
  rw [List.foldl_cons, worst_comm success code, List.foldl_assoc]

theorem worst_worstOf (codes : List ExitCode) : Worst codes (worstOf codes) := by
  induction codes with
  | nil => exact .nil
  | cons code codes ih => exact worstOf_cons code codes ▸ ih.cons code

theorem worstOf_perm {codes others : List ExitCode} (h : codes.Perm others) :
    worstOf codes = worstOf others := by
  refine h.foldl_eq' (fun a _ b _ code => ?_) success
  rw [worst_assoc, worst_comm a b, worst_assoc]

end ExitCode

/-! ## Verdicts on files -/

namespace Report

theorem status_eq_failed_iff (r : Report) :
    r.status = .failed ↔ ∃ error, r.outcome = .failed error := by
  unfold status
  cases r.outcome with
  | failed error => exact iff_of_true rfl ⟨error, rfl⟩
  | built report =>
    refine iff_of_false ?_ fun ⟨_, houtcome⟩ => nomatch houtcome
    dsimp only
    split_ifs <;> decide

theorem status_ne_failed {r : Report} {report : HierarchyReport}
    (h : r.outcome = .built report) : r.status ≠ .failed := by
  intro hstatus
  obtain ⟨error, houtcome⟩ := r.status_eq_failed_iff.1 hstatus
  exact nomatch h.symm.trans houtcome

theorem status_eq_ok_iff (r : Report) :
    r.status = .ok ↔ ∃ report, r.outcome = .built report ∧ report.incomplete = 0 := by
  unfold status
  cases r.outcome with
  | failed error =>
    exact iff_of_false (fun hstatus => nomatch hstatus) fun ⟨_, houtcome, _⟩ => nomatch houtcome
  | built report =>
    dsimp only
    split_ifs with hnone
    · exact iff_of_true rfl ⟨report, rfl, hnone⟩
    · refine iff_of_false (by decide) ?_
      rintro ⟨report, houtcome, hzero⟩
      obtain rfl := Outcome.built.inj houtcome
      exact hnone hzero

end Report

namespace Verdict

/-- Checking a file ends where it cannot be read, is no document, holds a record that is no
declaration, or makes no hierarchy, and otherwise in a report on its hierarchy. -/
theorem value_ofFile (files : Files) (folder : Place) (settings : Resolver) (strict : Bool)
    (path : Path) :
    (ofFile files folder settings strict path).value =
      match files.readText folder path with
      | .error cause => ⟨.failure path (.ofLoadError (.unreadable path cause)), .ioError⟩
      | .ok text =>
        match Document.read text with
        | .error defect => ⟨.failure path (.ofLoadError (.invalid defect)), .parseError⟩
        | .ok document =>
          match (Draft.buildAll (document.map (·.toDraft))).value with
          | .error error => ⟨.failure path (.ofLoadError (.structural error)), .generalError⟩
          | .ok declarations =>
            match (Hierarchy.build settings declarations).value with
            | .error error => ⟨.failure path (.ofStructureError error), .generalError⟩
            | .ok h => ofHierarchy strict path h := by
  show (ofLoaded settings strict path (Document.load files folder path).value).value = _
  rw [Document.value_load]
  cases files.readText folder path with
  | error cause => rfl
  | ok text =>
    simp only [Document.value_declarations]
    cases Document.read text with
    | error defect => rfl
    | ok document =>
      simp only []
      cases (Draft.buildAll (document.map (·.toDraft))).value with
      | error error => rfl
      | ok declarations =>
        show (ofLoaded settings strict path (.ok declarations)).value = _
        unfold ofLoaded
        simp only []
        cases (Hierarchy.build settings declarations).value <;> rfl

/-- The file cannot be read. -/
def Unreadable (files : Files) (folder : Place) (path : Path) : Prop :=
  ∃ cause, files.readText folder path = .error cause

/-- The file can be read, but holds no document. -/
def Undecodable (files : Files) (folder : Place) (path : Path) : Prop :=
  ∃ text defect, files.readText folder path = .ok text ∧ Document.read text = .error defect

/-- The file holds a document, but one of its records is no declaration, or the declarations make
no hierarchy. -/
def Unbuildable (files : Files) (folder : Place) (settings : Resolver) (path : Path) : Prop :=
  ∃ text document, files.readText folder path = .ok text ∧ Document.read text = .ok document ∧
    ((∃ error, (Draft.buildAll (document.map (·.toDraft))).value = .error error) ∨
      ∃ declarations error,
        (Draft.buildAll (document.map (·.toDraft))).value = .ok declarations ∧
          (Hierarchy.build settings declarations).value = .error error)

/-- The file holds a document, all of its records are declarations, and these make a hierarchy. -/
def Buildable (files : Files) (folder : Place) (settings : Resolver) (path : Path) : Prop :=
  ∃ text document declarations h, files.readText folder path = .ok text ∧
    Document.read text = .ok document ∧
    (Draft.buildAll (document.map (·.toDraft))).value = .ok declarations ∧
    (Hierarchy.build settings declarations).value = .ok h

/-- The report of an error is that of the step which failed, loading the file or building the
hierarchy. -/
def Blames (files : Files) (folder : Place) (settings : Resolver) (path : Path)
    (error : ErrorReport) : Prop :=
  (∃ cause, (Document.load files folder path).value = .error cause ∧
    error = .ofLoadError cause) ∨
  ∃ declarations cause, (Document.load files folder path).value = .ok declarations ∧
    (Hierarchy.build settings declarations).value = .error cause ∧
    error = .ofStructureError cause

/-- A verdict whose report, status and exit code agree with each other and with how checking the
file ended: the report is one on a hierarchy if the file makes one, and otherwise carries the error
of the step that failed, to which the status and the exit code answer. -/
structure Sound (files : Files) (folder : Place) (settings : Resolver) (strict : Bool)
    (path : Path) (v : Verdict) : Prop where
  source : v.report.source = path
  built : (∃ report, v.report.outcome = .built report) ↔ Buildable files folder settings path
  error : ∀ error, v.report.outcome = .failed error → Blames files folder settings path error
  failed_iff_exit : v.report.status = .failed ↔
    v.exit ∈ [ExitCode.ioError, .parseError, .generalError]
  failed : v.report.status = .failed ↔ ∃ error, v.report.outcome = .failed error
  rows : ∀ report, v.report.outcome = .built report → ∃ declarations h,
    (Document.load files folder path).value = .ok declarations ∧
      (Hierarchy.build settings declarations).value = .ok h ∧ h.report = .ok report ∧
      declarations.mapM h.typeReport = .ok report.types ∧
      report.types.map (·.name) = declarations.map (·.name)
  incomplete : ∀ report, v.report.outcome = .built report →
    report.incomplete = report.types.countP fun row => row.owed ≠ []
  ok : v.report.status = .ok ↔
    ∃ report, v.report.outcome = .built report ∧ report.incomplete = 0
  ioError : v.exit = .ioError ↔ Unreadable files folder path
  parseError : v.exit = .parseError ↔ Undecodable files folder path
  generalError : v.exit = .generalError ↔ Unbuildable files folder settings path
  blockingError : v.exit = .blockingError ↔ strict = true ∧
    ∃ report, v.report.outcome = .built report ∧ ∃ row ∈ report.types, row.owed ≠ []
  success : v.exit = .success ↔
    v.exit ∉ [ExitCode.ioError, .parseError, .generalError, .blockingError]

/-- The verdict on a hierarchy objects to a class that owes methods if it is a strict one. -/
theorem ofHierarchy_eq {settings : Resolver} {declarations : List Declaration}
    {links : List (Declaration × Links)} {h : Hierarchy}
    (hb : Hierarchy.Built settings declarations links h) (strict : Bool) (source : String) :
    ofHierarchy strict source h =
      ⟨⟨source, .built ⟨declarations.map h.row, h.incompleteClasses.length⟩⟩,
        if strict = true ∧ ∃ row ∈ declarations.map h.row, row.owed ≠ [] then .blockingError
        else .success⟩ := by
  have hreport : Report.ofHierarchy source h =
      ⟨source, .built ⟨declarations.map h.row, h.incompleteClasses.length⟩⟩ := by
    unfold Report.ofHierarchy
    rw [hb.report_eq]
  have hrows : h.incompleteClasses.length = 0 ↔
      ¬ ∃ row ∈ declarations.map h.row, row.owed ≠ [] := by
    rw [hb.length_incompleteClasses, List.countP_eq_zero]
    simp
  unfold ofHierarchy
  simp only [hreport, Report.status]
  by_cases hnone : h.incompleteClasses.length = 0
  · rw [if_pos hnone]
    exact congrArg (Verdict.mk _) (if_neg fun hstrict => hrows.1 hnone hstrict.2).symm
  · rw [if_neg hnone]
    have howing := not_not.1 (mt hrows.2 hnone)
    cases strict with
    | false => exact congrArg (Verdict.mk _) (if_neg fun hstrict => nomatch hstrict.1).symm
    | true => exact congrArg (Verdict.mk _) (if_pos ⟨rfl, howing⟩).symm

namespace Sound

variable {files : Files} {folder : Place} {settings : Resolver} {strict : Bool} {path : Path}

theorem not_buildable (h : Unreadable files folder path ∨ Undecodable files folder path ∨
    Unbuildable files folder settings path) : ¬ Buildable files folder settings path := by
  rintro ⟨text, document, declarations, hierarchy, htext, hdocument, hdeclarations, hbuild⟩
  rcases h with hio | hparse | hgeneral
  · simp [Unreadable, htext] at hio
  · simp [Undecodable, htext, hdocument] at hparse
  · simp [Unbuildable, htext, hdocument, hdeclarations, hbuild] at hgeneral

/-- A verdict without a hierarchy is sound if its exit code and its error tell what failed. -/
theorem of_failure {error : ErrorReport} {exit : ExitCode}
    (hfailed : exit ∈ [ExitCode.ioError, .parseError, .generalError])
    (herror : Blames files folder settings path error)
    (hio : exit = .ioError ↔ Unreadable files folder path)
    (hparse : exit = .parseError ↔ Undecodable files folder path)
    (hgeneral : exit = .generalError ↔ Unbuildable files folder settings path) :
    Sound files folder settings strict path ⟨.failure path error, exit⟩ where
  source := rfl
  built := by
    refine iff_of_false (fun ⟨_, houtcome⟩ => nomatch houtcome) (not_buildable ?_)
    simpa only [List.mem_cons, List.not_mem_nil, or_false, hio, hparse, hgeneral] using hfailed
  error := by
    rintro other houtcome
    obtain rfl := Outcome.failed.inj houtcome
    exact herror
  failed_iff_exit := iff_of_true rfl hfailed
  failed := Report.status_eq_failed_iff _
  rows := fun _ h => nomatch h
  incomplete := fun _ h => nomatch h
  ok := Report.status_eq_ok_iff _
  ioError := hio
  parseError := hparse
  generalError := hgeneral
  blockingError := by
    refine iff_of_false ?_ fun ⟨_, _, houtcome, _⟩ => nomatch houtcome
    rintro (rfl : exit = .blockingError)
    exact absurd hfailed (by decide)
  success := by
    show exit = .success ↔ exit ∉ _
    revert hfailed
    cases exit <;> decide

theorem of_hierarchy {text : String} {document : Document} {declarations : List Declaration}
    {h : Hierarchy} (htext : files.readText folder path = .ok text)
    (hdocument : Document.read text = .ok document)
    (hdeclarations : (Draft.buildAll (document.map (·.toDraft))).value = .ok declarations)
    (hbuild : (Hierarchy.build settings declarations).value = .ok h) :
    Sound files folder settings strict path (ofHierarchy strict path h) := by
  obtain ⟨links, hb⟩ := Hierarchy.built_of_build hbuild
  have hload : (Document.load files folder path).value = .ok declarations := by
    simp only [Document.value_load, Document.value_declarations, htext, hdocument, hdeclarations,
      Except.mapError]
  have hverdict := ofHierarchy_eq hb strict path
  obtain ⟨exit, hexit⟩ : ∃ exit, exit =
      if strict = true ∧ ∃ row ∈ declarations.map h.row, row.owed ≠ [] then .blockingError
      else ExitCode.success := ⟨_, rfl⟩
  rw [← hexit] at hverdict
  rw [hverdict]
  have hcases : exit = .blockingError ∨ exit = .success := by
    rw [hexit]
    split_ifs
    · exact Or.inl rfl
    · exact Or.inr rfl
  have hnot : exit ∉ [ExitCode.ioError, .parseError, .generalError] := by
    rcases hcases with rfl | rfl <;> decide
  obtain ⟨hio, hparse, hgeneral⟩ :
      exit ≠ .ioError ∧ exit ≠ .parseError ∧ exit ≠ .generalError := by
    simpa using hnot
  exact {
    source := rfl
    built := iff_of_true ⟨_, rfl⟩ ⟨text, document, declarations, h, htext, hdocument,
      hdeclarations, hbuild⟩
    error := fun _ houtcome => nomatch houtcome
    failed_iff_exit := iff_of_false (Report.status_ne_failed rfl) hnot
    failed := Report.status_eq_failed_iff _
    rows := by
      rintro report houtcome
      obtain rfl := Outcome.built.inj houtcome
      refine ⟨declarations, h, hload, hbuild, hb.report_eq, hb.mapM_typeReport, ?_⟩
      rw [List.map_map]
      rfl
    incomplete := by
      rintro report houtcome
      obtain rfl := Outcome.built.inj houtcome
      exact hb.length_incompleteClasses
    ok := Report.status_eq_ok_iff _
    ioError := iff_of_false hio (by simp [Unreadable, htext])
    parseError := iff_of_false hparse (by simp [Undecodable, htext, hdocument])
    generalError :=
      iff_of_false hgeneral (by simp [Unbuildable, htext, hdocument, hdeclarations, hbuild])
    blockingError := by
      dsimp only
      rw [hexit]
      split_ifs with howing
      · exact iff_of_true rfl ⟨howing.1, _, rfl, howing.2⟩
      · refine iff_of_false (by decide) ?_
        rintro ⟨hstrict, report, houtcome, hrow⟩
        obtain rfl := Outcome.built.inj houtcome
        exact howing ⟨hstrict, hrow⟩
    success := by
      dsimp only
      rcases hcases with rfl | rfl <;> decide }

end Sound

theorem sound_ofFile (files : Files) (folder : Place) (settings : Resolver) (strict : Bool)
    (path : Path) :
    Sound files folder settings strict path (ofFile files folder settings strict path).value := by
  rw [value_ofFile]
  have hload := Document.value_load files folder path
  cases htext : files.readText folder path with
  | error cause =>
    rw [htext] at hload
    refine .of_failure (by decide) (.inl ⟨_, hload, rfl⟩) ?_ ?_ ?_ <;>
      simp [Unreadable, Undecodable, Unbuildable, htext]
  | ok text =>
    simp only [htext, Document.value_declarations] at hload ⊢
    cases hdocument : Document.read text with
    | error defect =>
      rw [hdocument] at hload
      refine .of_failure (by decide) (.inl ⟨_, hload, rfl⟩) ?_ ?_ ?_ <;>
        simp [Unreadable, Undecodable, Unbuildable, htext, hdocument]
    | ok document =>
      simp only [hdocument] at hload ⊢
      cases hdeclarations : (Draft.buildAll (document.map (·.toDraft))).value with
      | error error =>
        rw [hdeclarations] at hload
        refine .of_failure (by decide) (.inl ⟨_, hload, rfl⟩) ?_ ?_ ?_ <;>
          simp [Unreadable, Undecodable, Unbuildable, htext, hdocument, hdeclarations]
      | ok declarations =>
        rw [hdeclarations] at hload
        simp only []
        cases hbuild : (Hierarchy.build settings declarations).value with
        | error error =>
          refine .of_failure (by decide) (.inr ⟨_, _, hload, hbuild, rfl⟩) ?_ ?_ ?_ <;>
            simp [Unreadable, Undecodable, Unbuildable, htext, hdocument, hdeclarations, hbuild]
        | ok h => exact .of_hierarchy htext hdocument hdeclarations hbuild

end Verdict

/-- Report, status and exit code agree for every file with each other and with how checking it
ended, no report on a hierarchy that was built fails, and for many files the worst exit code is
left, in whatever order they come. -/
theorem verdicts_agree (files : Files) (folder : Place) (settings : Resolver) (strict : Bool) :
    (∀ path, Verdict.Sound files folder settings strict path
      (Verdict.ofFile files folder settings strict path).value) ∧
    (∀ declarations h, (Hierarchy.build settings declarations).value = .ok h →
      ∃ report, h.report = .ok report) ∧
    ∀ paths : List Path,
      let verdicts := paths.map fun path =>
        (Verdict.ofFile files folder settings strict path).value
      ExitCode.Worst (verdicts.map (·.exit)) (Verdict.exitOf verdicts) ∧
        ∀ others, paths.Perm others → Verdict.exitOf verdicts =
          Verdict.exitOf (others.map fun path =>
            (Verdict.ofFile files folder settings strict path).value) := by
  refine ⟨fun path => Verdict.sound_ofFile files folder settings strict path, ?_, ?_⟩
  · intro declarations h hbuild
    obtain ⟨links, hb⟩ := Hierarchy.built_of_build hbuild
    exact ⟨_, hb.report_eq⟩
  · intro paths verdicts
    exact ⟨ExitCode.worst_worstOf _, fun others hperm =>
      ExitCode.worstOf_perm ((hperm.map _).map _)⟩

/-- A class that can be instantiated, with a method that has no body. -/
def bodiless : List Declaration :=
  [{ name := "app.Job", kind := .concreteClass, methods := [⟨⟨"run", []⟩, true⟩] }]

def bodilessDocument : Document :=
  bodiless.map fun d => .native d.toDraft

/-- A disk with a file that holds the document. -/
def bodilessFiles : Files :=
  ⟨[(["jobs.json"], .file bodilessDocument.toJson.compact.toUTF8)]⟩

theorem verdicts_agree_bodiless :
    ∃ h report, (Hierarchy.build .closed bodiless).value = .ok h ∧ h.report = .ok report ∧
      (Verdict.ofFile bodilessFiles [] .closed true "jobs.json").value.exit = .blockingError ∧
      (∃ found,
        (Verdict.ofFile bodilessFiles [] .closed true "jobs.json").value.report.outcome =
          .built found ∧ found.incomplete = found.types.countP (fun row => row.owed ≠ []) ∧
          ∃ row ∈ found.types, row.owed ≠ []) ∧
      (∃ found,
        (Verdict.ofFile bodilessFiles [] .closed false "jobs.json").value.report.outcome =
          .built found ∧ h.report = .ok found ∧
        (Verdict.ofFile bodilessFiles [] .closed false "jobs.json").value.report.status =
          .incomplete ∧
        (Verdict.ofFile bodilessFiles [] .closed false "jobs.json").value.exit = .success) ∧
      (Verdict.ofFile bodilessFiles [] .closed true "none.json").value.exit = .ioError := by
  have hbuild := Hierarchy.value_build_of_run
    (show Linking.run .closed bodiless = .ok _ from rfl) (by decide +kernel)
  have htext : bodilessFiles.readText [] "jobs.json" = .ok bodilessDocument.toJson.compact :=
    Files.readText_of_look rfl
  have hread : Document.read bodilessDocument.toJson.compact = .ok bodilessDocument :=
    Document.read_of_holds .bare (Json.read_compact (Document.readable_of_holds .bare 121))
  have hdrafts : (Draft.buildAll (bodilessDocument.map (·.toDraft))).value = .ok bodiless := rfl
  have hexit : (Verdict.ofFile bodilessFiles [] .closed true "jobs.json").value.exit =
      .blockingError := by
    rw [Verdict.value_ofFile, htext]
    simp only [hread, hdrafts, hbuild]
    decide +kernel
  have hlenient : (Verdict.ofFile bodilessFiles [] .closed false "jobs.json").value.report.status =
        .incomplete ∧
      (Verdict.ofFile bodilessFiles [] .closed false "jobs.json").value.exit = .success := by
    rw [Verdict.value_ofFile, htext]
    simp only [hread, hdrafts, hbuild]
    decide +kernel
  obtain ⟨hsound, hreports, -⟩ := verdicts_agree bodilessFiles [] .closed true
  obtain ⟨hsoundLenient, -, -⟩ := verdicts_agree bodilessFiles [] .closed false
  obtain ⟨report, hreport⟩ := hreports bodiless _ hbuild
  obtain ⟨-, found, houtcome, hrow⟩ := (hsound "jobs.json").blockingError.1 hexit
  obtain ⟨other, hother⟩ := (hsoundLenient "jobs.json").built.2
    ⟨_, _, _, _, htext, hread, hdrafts, hbuild⟩
  have hsame : other = report := by
    obtain ⟨declarations, h, hload, hbuild', hreport', -⟩ :=
      (hsoundLenient "jobs.json").rows other hother
    simp only [Document.value_load, Document.value_declarations, htext, hread, hdrafts] at hload
    obtain rfl : bodiless = declarations := Except.ok.inj hload
    obtain rfl := Except.ok.inj (hbuild.symm.trans hbuild')
    exact Except.ok.inj (hreport'.symm.trans hreport)
  exact ⟨_, report, hbuild, hreport, hexit,
    ⟨found, houtcome, (hsound "jobs.json").incomplete found houtcome, hrow⟩,
    ⟨other, hother, hsame ▸ hreport, hlenient⟩,
    (hsound "none.json").ioError.2 ⟨.notFound, rfl⟩⟩

end Lineage
