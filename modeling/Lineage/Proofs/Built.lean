import Lineage.Hierarchy
import Lineage.Proofs.LinkedGraph

/-!
# Built hierarchies

A hierarchy that was built stands on a linked graph without a fault (`built_of_build`). Its names
are those of the root, of the declared types, and of the external types that a declaration names as
a supertype (`Built.contains_iff`), and all queries go through the name that a type has in the graph
(`canonical_eq`).
-/

namespace Lineage

namespace Graph

theorem name_of_node? {g : Graph} {name : TypeName} {n : Node} (h : g.node? name = some n) :
    n.name = if g.isRootName name then g.root else name := by
  unfold node? at h
  split_ifs at h with hroot
  · rw [if_pos hroot]
    exact Option.some.inj h ▸ rfl
  · rw [if_neg hroot]
    cases hd : g.declared? name with
    | some d =>
      rw [hd] at h
      obtain rfl := Option.some.inj h
      exact (mem_of_declared? hd).2
    | none =>
      rw [hd, Option.map_eq_some_iff] at h
      obtain ⟨e, he, rfl⟩ := h
      exact (mem_of_external? he).2

theorem node?_isSome_iff {g : Graph} {name : TypeName} :
    (g.node? name).isSome ↔
      g.isRootName name = true ∨ name ∈ g.typeNames ∨ name ∈ g.externals.map (·.name) := by
  unfold node?
  split_ifs with hroot
  · exact iff_of_true rfl (Or.inl hroot)
  · rw [or_iff_right hroot, ← declared?_isSome_iff]
    cases hd : g.declared? name with
    | some d => exact iff_of_true rfl (Or.inl rfl)
    | none =>
      rw [Option.isSome_map, or_iff_right (by simp)]
      unfold external?
      rw [List.find?_isSome, List.mem_map]
      simp only [decide_eq_true_eq]

end Graph

namespace Hierarchy

/-- The name that a type has in the graph is its own, except for the aliases of the root. -/
theorem canonical_eq (h : Hierarchy) (name : TypeName) :
    h.canonical name =
      if h.contains name then .ok (if h.graph.isRootName name then h.graph.root else name)
      else .error ⟨name⟩ := by
  unfold canonical node contains
  cases hnode : h.graph.node? name with
  | none => rfl
  | some n => exact congrArg Except.ok (Graph.name_of_node? hnode)

section Canonical

variable {h : Hierarchy} {name type : TypeName}

theorem contains_of_canonical (htype : h.canonical name = .ok type) : h.contains name = true := by
  by_contra hnot
  rw [canonical_eq, if_neg hnot] at htype
  exact nomatch htype

theorem superclassOf_of_canonical (htype : h.canonical name = .ok type) :
    h.superclassOf name = .ok (h.graph.superclass? type) := by
  unfold superclassOf
  rw [htype]
  rfl

theorem ancestorsOf_of_canonical (htype : h.canonical name = .ok type) :
    h.ancestorsOf name = .ok (h.graph.ancestors type) := by
  unfold ancestorsOf
  rw [htype]
  rfl

theorem interfacesOf_of_canonical (htype : h.canonical name = .ok type) :
    h.interfacesOf name = .ok (h.graph.interfacesOfAll (type :: h.graph.ancestors type)) := by
  unfold interfacesOf
  rw [htype]
  rfl

end Canonical

/-- Building links the declarations and then refuses a graph with a fault. -/
theorem value_build (settings : Resolver) (declarations : List Declaration) :
    (build settings declarations).value =
      match Linking.run settings declarations with
      | .error failure => .error failure.error
      | .ok l =>
        match l.graph.fault? with
        | some error => .error error
        | none => .ok ⟨l.graph, l.graph.ledger.obligations⟩ := by
  unfold build
  cases Linking.run settings declarations with
  | error failure => rfl
  | ok l =>
    simp only []
    cases l.graph.fault? <;> rfl

theorem value_build_of_run {settings : Resolver} {declarations : List Declaration} {l : Linking}
    (hrun : Linking.run settings declarations = .ok l) (hfault : l.graph.fault? = none) :
    (build settings declarations).value = .ok ⟨l.graph, l.graph.ledger.obligations⟩ := by
  rw [value_build, hrun]
  simp only []
  rw [hfault]

/-- A hierarchy of declarations whose references mean these types. -/
structure Built (settings : Resolver) (declarations : List Declaration)
    (links : List (Declaration × Links)) (h : Hierarchy) : Prop where
  linkage : Linkage settings declarations links h.graph
  sound : h.graph.fault? = none
  obligations : h.obligations = h.graph.ledger.obligations

theorem built_of_build {settings : Resolver} {declarations : List Declaration} {h : Hierarchy}
    (hbuild : (build settings declarations).value = .ok h) :
    ∃ links, Built settings declarations links h := by
  rw [value_build] at hbuild
  cases hrun : Linking.run settings declarations with
  | error failure =>
    rw [hrun] at hbuild
    exact nomatch hbuild
  | ok l =>
    simp only [hrun] at hbuild
    cases hfault : l.graph.fault? with
    | some error =>
      rw [hfault] at hbuild
      exact nomatch hbuild
    | none =>
      rw [hfault] at hbuild
      obtain rfl := Except.ok.inj hbuild
      obtain ⟨links, hlinks⟩ := linkage_of_run hrun
      exact ⟨links, hlinks, hfault, rfl⟩

namespace Built

variable {settings : Resolver} {declarations : List Declaration}
  {links : List (Declaration × Links)} {h : Hierarchy}

theorem contains_iff (hb : Built settings declarations links h) {name : TypeName} :
    h.contains name = true ↔ settings.isRoot name = true ∨ name ∈ declarations.map (·.name) ∨
      settings.Foreign declarations name ∧ Inherited (ownEdges links) name := by
  have hlinked := hb.linkage.linked
  unfold contains
  rw [Graph.node?_isSome_iff, hlinked.isRootName, hlinked.typeNames_eq, hlinked.mem_externals]

theorem canonical_of_contains (hb : Built settings declarations links h) {name : TypeName}
    (hname : h.contains name = true) :
    h.canonical name = .ok (if settings.isRoot name then h.rootName else name) := by
  rw [canonical_eq, if_pos hname, hb.linkage.linked.isRootName]
  rfl

theorem canonical_of_declared (hb : Built settings declarations links h) {d : Declaration}
    (hd : d ∈ declarations) : h.canonical d.name = .ok d.name := by
  have hcontains := hb.contains_iff.2 (Or.inr (Or.inl (List.mem_map_of_mem hd)))
  have hroot : h.graph.isRootName d.name = false :=
    (hb.linkage.linked.isRootName d.name).trans (hb.linkage.named.noRoot d hd)
  rw [canonical_eq, if_pos hcontains, hroot]
  rfl

end Built

end Hierarchy

end Lineage
