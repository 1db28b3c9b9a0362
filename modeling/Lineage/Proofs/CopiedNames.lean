import Lineage.Proofs.MemberLookup

/-!
# Names copied into references

Whoever writes a list of drafts may copy the text of a name into a reference. The name of a type
loses the white space around it, a reference keeps all of its text. So a copied name is linked to
the type that it is copied from exactly if there is no white space to lose
(`linkedTo_declaredName_iff`), and a name with such white space cannot be referred to by its own
text (`blank_name_unresolved`).
-/

namespace Lineage

/-! ## References by full names -/

namespace TypeName

theorem length_lt_member (outer reference : TypeName) :
    reference.length < (member outer reference).length := by
  unfold member
  have hsign : "$".length = 1 := rfl
  simp only [String.length_append]
  omega

theorem length_lt_qualify (package reference : String) :
    reference.length < (qualify package reference).length := by
  unfold qualify
  have hsign : ".".length = 1 := rfl
  simp only [String.length_append]
  omega

end TypeName

namespace Graph

variable {g : Graph} {bound : Nat} {source reference : TypeName} {d : Declaration}

/-- The name of a declared type means that type, whatever else it may mean. -/
theorem lookupWithin_of_declared (h : g.declared? reference = some d) :
    g.lookupWithin bound source reference = some d := by
  unfold lookupWithin
  rw [h, Option.some_or, Option.some_or]

/-- The declared type that a reference means has that name, or a longer one. -/
theorem name_of_lookupWithin (h : g.lookupWithin bound source reference = some d) :
    d.name = reference ∨ reference.length < d.name.length := by
  unfold lookupWithin at h
  obtain h | ⟨-, h⟩ := Option.or_eq_some_iff.1 h
  · obtain h | ⟨-, h⟩ := Option.or_eq_some_iff.1 h
    · exact Or.inl (mem_of_declared? h).2
    · cases bound with
      | zero => exact nomatch h
      | succ bound =>
        obtain ⟨scope, hname, -⟩ := find?_of_lookupMember h
        rw [hname]
        exact Or.inr (TypeName.length_lt_member scope reference)
  · unfold lookupPackage at h
    split_ifs at h
    obtain ⟨package, -, hd⟩ := Option.bind_eq_some_iff.1 h
    rw [(mem_of_declared? hd).2]
    exact Or.inr (TypeName.length_lt_qualify package reference)

end Graph

namespace Resolver

variable {settings : Resolver} {declarations : List Declaration} {bound : Nat}
  {source reference target : TypeName}

theorem meaning_of_declared (h : reference ∈ declarations.map (·.name)) :
    settings.meaning declarations bound source reference = some reference := by
  obtain ⟨d, hd⟩ := Option.isSome_iff_exists.1 <| Graph.declared?_isSome_iff.2
    (show reference ∈ (Graph.unlinked settings declarations).typeNames from h)
  unfold meaning
  rw [Graph.lookupWithin_of_declared hd]
  exact congrArg some (Graph.mem_of_declared? hd).2

/-- A reference means the declared type whose name is the trimmed reference only if nothing was
trimmed. -/
theorem meaning_eq_trim_iff (hnamed : settings.WellNamed declarations)
    (hdeclared : trim reference ∈ declarations.map (·.name))
    (h : settings.meaning declarations bound source reference = some target) :
    target = trim reference ↔ trim reference = reference := by
  constructor
  · rintro rfl
    unfold meaning at h
    cases hlookup : (Graph.unlinked settings declarations).lookupWithin bound source reference with
    | some d =>
      rw [hlookup] at h
      obtain heq : d.name = trim reference := Option.some.inj h
      have hlength := length_trim_le reference
      rw [← heq] at hlength ⊢
      exact (Graph.name_of_lookupWithin hlookup).resolve_right (Nat.not_lt.2 hlength)
    | none =>
      simp only [hlookup] at h
      split_ifs at h with hroot hadmits
      · exact absurd (Option.some.inj h ▸ hdeclared) hnamed.rootType_not_mem
      · exact (Option.some.inj h).symm
  · intro htrim
    rw [htrim] at hdeclared ⊢
    exact Option.some.inj (h.symm.trans (meaning_of_declared hdeclared))

end Resolver

/-! ## Self-contained drafts -/

/-- The types that a draft names. -/
def Draft.references (d : Draft) : List TypeName :=
  d.superclass.toList ++ d.interfaces ++ d.enclosingType.toList

/-- Every reference is the name of some draft, as it was written. -/
def SelfContained (drafts : List Draft) : Prop :=
  ∀ d ∈ drafts, ∀ reference ∈ d.references, ∃ e ∈ drafts, e.name = reference

/-- Each draft is built into the declaration in its place. -/
def BuiltFrom (drafts : List Draft) (declarations : List Declaration) : Prop :=
  List.Forall₂ (fun d c => d.build = .ok c) drafts declarations

namespace BuiltFrom

variable {drafts : List Draft} {declarations : List Declaration}

theorem exists_draft (h : BuiltFrom drafts declarations) {c : Declaration}
    (hc : c ∈ declarations) : ∃ d ∈ drafts, d.build = .ok c := by
  obtain ⟨i, hi, rfl⟩ := List.getElem_of_mem hc
  have hi' : i < drafts.length := h.length_eq ▸ hi
  exact ⟨drafts[i], List.getElem_mem hi', h.get hi' hi⟩

theorem declaredName_mem (h : BuiltFrom drafts declarations) {d : Draft} (hd : d ∈ drafts) :
    d.declaredName ∈ declarations.map (·.name) := by
  obtain ⟨i, hi, rfl⟩ := List.getElem_of_mem hd
  have hi' : i < declarations.length := h.length_eq ▸ hi
  obtain ⟨-, _, -, heq⟩ := Draft.build_eq_ok_iff.1 (h.get hi hi')
  have hname : declarations[i].name = drafts[i].declaredName := congrArg Declaration.name heq
  exact hname ▸ List.mem_map_of_mem (List.getElem_mem hi')

theorem mem_references {d : Draft} {c : Declaration} (hbuild : d.build = .ok c)
    {reference : TypeName} (h : reference ∈ c.supertypes ∨ c.enclosingType = some reference) :
    c.name = d.declaredName ∧ reference ∈ d.references := by
  obtain ⟨-, methods, -, rfl⟩ := Draft.build_eq_ok_iff.1 hbuild
  refine ⟨rfl, ?_⟩
  unfold Draft.references
  rw [List.mem_append, List.mem_append, Option.mem_toList, Option.mem_toList]
  obtain h | h := h
  · exact Or.inl ((Declaration.mem_supertypes.1 h).imp_left And.right)
  · exact Or.inr h

end BuiltFrom

theorem Resolver.Fails.not_mem {settings : Resolver} {declarations : List Declaration}
    {d : Declaration} {error : StructureError} (h : settings.Fails declarations d error) :
    ∃ reference, error = .unresolved reference d.name ∧
      (reference ∈ d.supertypes ∨ d.enclosingType = some reference) ∧
      reference ∉ declarations.map (·.name) := by
  obtain ⟨reference, nodes, rfl, -, ⟨hmem, hnone⟩ | ⟨houter, hnone⟩⟩ := h
  · refine ⟨reference, rfl, Or.inl hmem, fun hdeclared => ?_⟩
    exact nomatch hnone.symm.trans (meaning_of_declared hdeclared)
  · exact ⟨reference, rfl, Or.inr houter, Graph.not_mem_of_lookupWithin hnone⟩

/-- Building fails because of a reference only if that is no name of a declared type. -/
theorem Hierarchy.not_mem_of_unresolved {settings : Resolver} {declarations : List Declaration}
    {name source : TypeName}
    (h : (Hierarchy.build settings declarations).value = .error (.unresolved name source)) :
    ∃ d ∈ declarations, d.name = source ∧ (name ∈ d.supertypes ∨ d.enclosingType = some name) ∧
      name ∉ declarations.map (·.name) := by
  have hends := run_ends settings declarations
  rw [value_build] at h
  cases hrun : Linking.run settings declarations with
  | error failure =>
    rw [hrun] at hends h
    have herror : failure.error = .unresolved name source := Except.error.inj h
    obtain ⟨-, other, heq⟩ | ⟨-, d, hd, hfails⟩ := hends
    · exact nomatch heq.symm.trans herror
    · obtain ⟨reference, heq, hmem, hnot⟩ := hfails.not_mem
      obtain ⟨rfl, rfl⟩ := StructureError.unresolved.inj (heq.symm.trans herror)
      exact ⟨d, hd, rfl, hmem, hnot⟩
  | ok l =>
    simp only [hrun] at h
    cases hfault : l.graph.fault? with
    | none =>
      rw [hfault] at h
      exact nomatch h
    | some error =>
      rw [hfault] at h
      exact absurd (hfault.trans (congrArg some (Except.error.inj h)))
        (Graph.fault?_ne_unresolved name source)

/-- In self-contained drafts, a reference remains unresolved only if it has white space at its
ends. In a linked graph, a supertype or enclosing type whose text is copied from the name of a draft
is linked to the type of that draft exactly if the text has no white space at its ends. -/
theorem linkedTo_declaredName_iff {drafts : List Draft} {declarations : List Declaration}
    (hbuilt : BuiltFrom drafts declarations) (hself : SelfContained drafts) (settings : Resolver) :
    (∀ name source,
      (Hierarchy.build settings declarations).value = .error (.unresolved name source) →
        ∃ d ∈ drafts, d.declaredName = source ∧ name ∈ d.references ∧ trim name ≠ name) ∧
    ∀ l, Linking.run settings declarations = .ok l → ∀ c ∈ declarations, ∀ e ∈ drafts,
      (e.name ∈ c.supertypes → (∃ target, LinkedTo l.graph c e.name target) ∧
        ∀ target, LinkedTo l.graph c e.name target →
          (target = e.declaredName ↔ trim e.name = e.name)) ∧
      (c.enclosingType = some e.name → ∃ outer, l.graph.enclosing? c.name = some outer ∧
        (outer = e.declaredName ↔ trim e.name = e.name)) := by
  constructor
  · intro name source hvalue
    obtain ⟨c, hc, rfl, hmem, hnot⟩ := Hierarchy.not_mem_of_unresolved hvalue
    obtain ⟨d, hd, hbuild⟩ := hbuilt.exists_draft hc
    obtain ⟨hname, hreference⟩ := BuiltFrom.mem_references hbuild hmem
    refine ⟨d, hd, hname.symm, hreference, fun htrim => hnot ?_⟩
    obtain ⟨e, he, rfl⟩ := hself d hd name hreference
    exact htrim ▸ hbuilt.declaredName_mem he
  · intro l hrun c hc e he
    obtain ⟨links, hlinks⟩ := linkage_of_run hrun
    have hdeclared : trim e.name ∈ declarations.map (·.name) := hbuilt.declaredName_mem he
    constructor
    · intro hmem
      refine ⟨hlinks.exists_linkedTo hc hmem, fun target hlink => ?_⟩
      obtain ⟨nodes, -, -, hmeaning⟩ := hlinks.means_of_linkedTo hc hlink
      exact Resolver.meaning_eq_trim_iff hlinks.named hdeclared hmeaning
    · intro henclosing
      obtain ⟨k, hk⟩ := hlinks.exists_links hc
      have hmeans := (hlinks.reads _ hk).outer
      unfold Resolver.OuterMeans at hmeans
      rw [henclosing] at hmeans
      obtain ⟨nodes, -, outer, hlookup, houter⟩ := hmeans
      have hmeaning :
          settings.meaning declarations (nodes + 1) c.name e.name = some outer.name := by
        unfold Resolver.meaning
        rw [hlookup]
      exact ⟨outer.name, (hlinks.enclosing?_eq hk).trans houter,
        Resolver.meaning_eq_trim_iff hlinks.named hdeclared hmeaning⟩

/-- A type and a class inside it that extends it, each under the same text. -/
def copied (name : String) : List Draft :=
  [{ name, kind := .concreteClass },
    { name := "app.Outer$Inner", kind := .concreteClass, superclass := some name,
      enclosingType := some name }]

/-- The declarations of these drafts, if the type is declared under some name. -/
def copiedDeclarations (name : TypeName) (reference : String) : List Declaration :=
  [{ name, kind := .concreteClass },
    { name := "app.Outer$Inner", kind := .concreteClass, superclass := some reference,
      enclosingType := some reference }]

theorem linkedTo_declaredName_copied :
    BuiltFrom (copied "app.Base") (copiedDeclarations "app.Base" "app.Base") ∧
    SelfContained (copied "app.Base") ∧
    ∃ l, Linking.run {} (copiedDeclarations "app.Base" "app.Base") = .ok l ∧
      (∃ target, LinkedTo l.graph (copiedDeclarations "app.Base" "app.Base")[1] "app.Base" target ∧
        target = "app.Base") ∧
      l.graph.enclosing? "app.Outer$Inner" = some "app.Base" := by
  have hbuilt : BuiltFrom (copied "app.Base") (copiedDeclarations "app.Base" "app.Base") :=
    .cons rfl (.cons rfl .nil)
  have hself : SelfContained (copied "app.Base") := by
    unfold SelfContained
    decide
  have hrun : Linking.run {} (copiedDeclarations "app.Base" "app.Base") = .ok _ := rfl
  obtain ⟨-, hlinks⟩ := linkedTo_declaredName_iff hbuilt hself {}
  obtain ⟨hsuper, houter⟩ := hlinks _ hrun (copiedDeclarations "app.Base" "app.Base")[1] (by decide)
    (copied "app.Base")[0] (by decide)
  obtain ⟨⟨target, hlink⟩, hiff⟩ := hsuper (by decide)
  obtain ⟨outer, henclosing, hiff'⟩ := houter rfl
  obtain rfl : outer = "app.Base" := hiff'.2 (by decide)
  exact ⟨hbuilt, hself, _, hrun, ⟨target, hlink, (hiff target hlink).2 (by decide)⟩, henclosing⟩

/-- A class cannot be extended by the text of its name if that text has white space around it. -/
theorem blank_name_unresolved :
    BuiltFrom (copied " app.Base ") (copiedDeclarations "app.Base" " app.Base ") ∧
    SelfContained (copied " app.Base ") ∧
    (Hierarchy.build {} (copiedDeclarations "app.Base" " app.Base ")).value =
      .error (.unresolved " app.Base " "app.Outer$Inner") := by
  refine ⟨.cons rfl (.cons rfl .nil), ?_, rfl⟩
  unfold SelfContained
  decide

end Lineage
