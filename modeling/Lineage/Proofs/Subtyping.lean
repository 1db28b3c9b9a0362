import Lineage.Proofs.ClassTree

/-!
# Subtypes

A subtype query follows superclasses and interfaces alike. Where it leaves an interface for a
superclass, the interface is an external type that a class extends, and the way ends at the root
(`Hierarchy.Built.reaches_iff`). So the supertypes of a class are its ancestors and its interfaces
(`isSubtypeOf_iff_of_isClass`), while those of an interface are the interfaces that it extends, and
the root if somebody's class extends one of these (`isSubtypeOf_iff_of_interface`).
-/

namespace Lineage

namespace Graph

variable {g : Graph} {name b : TypeName}

theorem reaches_of_mem_ancestors (hacyclic : ¬ g.inheritance.Cyclic)
    (hb : b ∈ name :: g.ancestors name) : g.inheritance.Reaches name b :=
  Relation.ReflTransGen.mono (fun _ _ => adj_of_superclass?) name b
    ((mem_ancestors_iff hacyclic).1 hb)

theorem reaches_of_implements (himpl : g.Implements name b) : g.inheritance.Reaches name b :=
  Relation.ReflTransGen.mono (fun _ _ => adj_of_implementation) name b himpl.to_reflTransGen

theorem reaches_of_mem_interfaces (hacyclic : ¬ g.inheritance.Cyclic)
    (hb : b ∈ g.interfacesOfAll (name :: g.ancestors name)) : g.inheritance.Reaches name b := by
  obtain ⟨c, hc, himpl⟩ := mem_interfacesOfAll.1 hb
  exact (reaches_of_mem_ancestors hacyclic hc).trans (reaches_of_implements himpl)

end Graph

namespace Hierarchy

/-- A subtype query answers whether the type of one name leads to the type of the other. -/
theorem isSubtypeOf_of_canonical {h : Hierarchy} {sub super a b : TypeName}
    (ha : h.canonical sub = .ok a) (hb : h.canonical super = .ok b) :
    ∃ answer, h.isSubtypeOf sub super = .ok answer ∧
      (answer = true ↔ h.graph.inheritance.Reaches a b) := by
  unfold isSubtypeOf supertypesOf
  rw [ha, hb]
  refine ⟨_, rfl, ?_⟩
  rw [List.contains_iff_mem, Digraph.mem_closure_nil]
  simp only [List.mem_singleton, exists_eq_left]

end Hierarchy

namespace Hierarchy.Built

variable {settings : Resolver} {declarations : List Declaration}
  {links : List (Declaration × Links)} {h : Hierarchy} {name b : TypeName}

/-- An interface has no superclass but the root, and only as an external type. -/
theorem superclass?_of_implements (hb : Built settings declarations links h) {i : TypeName}
    (himpl : h.graph.Implements name i) (hsuper : h.graph.superclass? i = some b) :
    b = h.graph.root ∧ ∃ e ∈ h.graph.externals, e.name = i := by
  obtain ⟨n, hn, rfl, hfits⟩ := hb.exists_node_of_implements himpl
  rcases Graph.mem_nodes.1 hn with rfl | ⟨d, hd, rfl⟩ | ⟨e, he, rfl⟩
  · exact nomatch hfits
  · have hclass : d.kind.isClass = false := congrArg TypeKind.isClass (of_decide_eq_true hfits)
    have hnone := hb.linkage.superclass?_of_not_isClass (hb.linkage.linked.declared ▸ hd) hclass
    exact nomatch hnone.symm.trans hsuper
  · have hforeign := hb.linkage.foreign_of_external (List.mem_map_of_mem he)
    rcases hb.linkage.superclass?_of_foreign hforeign with ⟨hroot, -⟩ | ⟨hnone, -⟩
    · exact ⟨Option.some.inj (hsuper.symm.trans hroot), e, he, rfl⟩
    · exact nomatch hnone.symm.trans hsuper

theorem cases_of_adj (hb : Built settings declarations links h) {c : TypeName}
    (hmem : b ∈ name :: h.graph.ancestors name ∨
      b ∈ h.graph.interfacesOfAll (name :: h.graph.ancestors name))
    (hadj : h.graph.inheritance.Adj b c) :
    c ∈ name :: h.graph.ancestors name ∨
      c ∈ h.graph.interfacesOfAll (name :: h.graph.ancestors name) ∨
      c = h.graph.root ∧ ∃ i ∈ h.graph.interfacesOfAll (name :: h.graph.ancestors name),
        h.graph.superclass? i = some h.graph.root := by
  rw [Graph.adj_inheritance, ← hb.linkage.superclass?_eq_some_iff] at hadj
  rcases hmem with hmem | hmem
  · rcases hadj with hsuper | hinterface
    · rw [Graph.mem_ancestors_iff hb.acyclic_inheritance] at hmem ⊢
      exact Or.inl (hmem.tail hsuper)
    · have himpl : h.graph.Implements b c := .single (Digraph.mem_successors.1 hinterface)
      exact Or.inr (Or.inl (Graph.mem_interfacesOfAll.2 ⟨b, hmem, himpl⟩))
  · obtain ⟨a, ha, himpl⟩ := Graph.mem_interfacesOfAll.1 hmem
    rcases hadj with hsuper | hinterface
    · obtain ⟨rfl, -⟩ := hb.superclass?_of_implements himpl hsuper
      exact Or.inr (Or.inr ⟨rfl, b, hmem, hsuper⟩)
    · have hmore : h.graph.Implements a c := himpl.tail (Digraph.mem_successors.1 hinterface)
      exact Or.inr (Or.inl (Graph.mem_interfacesOfAll.2 ⟨a, ha, hmore⟩))

/-- What superclasses and interfaces lead to, taken together. -/
theorem reaches_iff (hb : Built settings declarations links h) :
    h.graph.inheritance.Reaches name b ↔
      b ∈ name :: h.graph.ancestors name ∨
      b ∈ h.graph.interfacesOfAll (name :: h.graph.ancestors name) ∨
      b = h.graph.root ∧ ∃ i ∈ h.graph.interfacesOfAll (name :: h.graph.ancestors name),
        h.graph.superclass? i = some h.graph.root := by
  constructor
  · intro hreaches
    induction hreaches with
    | refl => exact Or.inl List.mem_cons_self
    | @tail b c _ hadj ih =>
      rcases ih with hmem | hmem | ⟨rfl, -⟩
      · exact hb.cases_of_adj (Or.inl hmem) hadj
      · exact hb.cases_of_adj (Or.inr hmem) hadj
      · exact absurd hadj (hb.linkage.not_adj_root c)
  · rintro (hmem | hmem | ⟨rfl, i, hi, hsuper⟩)
    · exact Graph.reaches_of_mem_ancestors hb.acyclic_inheritance hmem
    · exact Graph.reaches_of_mem_interfaces hb.acyclic_inheritance hmem
    · have hreaches := Graph.reaches_of_mem_interfaces hb.acyclic_inheritance hi
      exact Relation.ReflTransGen.tail hreaches (Graph.adj_of_superclass? hsuper)

/-! ## Queries -/

theorem isSubtypeOf_eq (hb : Built settings declarations links h) {d : Declaration}
    (hd : d ∈ declarations) {super type : TypeName} (htype : h.canonical super = .ok type) :
    ∃ answer, h.isSubtypeOf d.name super = .ok answer ∧
      (answer = true ↔ h.graph.inheritance.Reaches d.name type) :=
  isSubtypeOf_of_canonical (hb.canonical_of_declared hd) htype

theorem under_root_iff (hb : Built settings declarations links h) {e : External}
    (he : e ∈ h.graph.externals) : h.graph.superclass? e.name = some h.graph.root ↔
      ∃ c ∈ declarations, c.kind.isClass = true ∧ h.superclassOf c.name = .ok (some e.name) := by
  have hforeign := hb.linkage.foreign_of_external (List.mem_map_of_mem he)
  rw [hb.linkage.superclass?_eq_root_iff hforeign, hb.linkage.extended_iff]
  constructor
  · rintro ⟨⟨c, k⟩, hk, hclass, hsuper⟩
    refine ⟨c, hb.linkage.mem_declarations hk, hclass, ?_⟩
    rw [hb.superclassOf_eq_some_iff, hb.linkage.superclass?_eq hk]
    exact hsuper
  · rintro ⟨c, hc, hclass, hsuper⟩
    obtain ⟨k, hk⟩ := hb.linkage.exists_links hc
    rw [hb.superclassOf_eq_some_iff, hb.linkage.superclass?_eq hk] at hsuper
    exact ⟨_, hk, hclass, hsuper⟩

end Hierarchy.Built

section Results

variable {settings : Resolver} {declarations : List Declaration} {h : Hierarchy}

/-! ## Classes -/

/-- The supertypes of a class are the class, its ancestors and its interfaces. -/
theorem isSubtypeOf_iff_of_isClass
    (hbuild : (Hierarchy.build settings declarations).value = .ok h)
    {d : Declaration} (hd : d ∈ declarations) (hclass : d.kind.isClass = true) {name : TypeName}
    (hname : h.contains name = true) :
    ∃ type above interfaces answer, h.canonical name = .ok type ∧
      type = (if settings.isRoot name then h.rootName else name) ∧
      h.ancestorsOf d.name = .ok above ∧ h.interfacesOf d.name = .ok interfaces ∧
      h.isSubtypeOf d.name name = .ok answer ∧
      (answer = true ↔ type = d.name ∨ type ∈ above ∨ type ∈ interfaces) := by
  obtain ⟨links, hb⟩ := Hierarchy.built_of_build hbuild
  have hself := hb.canonical_of_declared hd
  have htype := hb.canonical_of_contains hname
  obtain ⟨answer, hanswer, hiff⟩ := hb.isSubtypeOf_eq hd htype
  refine ⟨_, _, _, answer, htype, rfl, Hierarchy.ancestorsOf_of_canonical hself,
    Hierarchy.interfacesOf_of_canonical hself, hanswer, ?_⟩
  have hroot : h.graph.root ∈ h.graph.ancestors d.name := by
    obtain ⟨below, heq, -⟩ := hb.ancestors_of_isClass hd hclass
    rw [heq]
    exact List.mem_append_right _ List.mem_cons_self
  rw [hiff, hb.reaches_iff, List.mem_cons, or_assoc]
  refine or_congr_right ⟨?_, Or.imp_right Or.inl⟩
  rintro (habove | hinterface | ⟨heq, -⟩)
  · exact Or.inl habove
  · exact Or.inr hinterface
  · rw [heq]
    exact Or.inl hroot

theorem isSubtypeOf_job :
    ∃ h below beside, (Hierarchy.build {} lateClass).value = .ok h ∧
      h.isSubtypeOf "app.Job" "java.lang.Object" = .ok below ∧ below = true ∧
      h.isSubtypeOf "app.Job" "app.Task" = .ok beside ∧ beside ≠ true := by
  have hjob : lateClass[1] ∈ lateClass := by decide
  obtain ⟨_, above, _, below, htype, -, habove, -, hbelow, hiff⟩ :=
    isSubtypeOf_iff_of_isClass build_lateClass hjob rfl
      (show Hierarchy.contains _ "java.lang.Object" = true by decide)
  obtain ⟨_, above', interfaces, beside, htype', -, habove', hinterfaces, hbeside, hiff'⟩ :=
    isSubtypeOf_iff_of_isClass build_lateClass hjob rfl
      (show Hierarchy.contains _ "app.Task" = true by decide)
  refine ⟨_, below, beside, build_lateClass, hbelow, hiff.2 ?_, hbeside, fun htrue => ?_⟩
  · obtain rfl := Except.ok.inj ((show _ = Except.ok "Object" from rfl).symm.trans htype)
    obtain rfl := Except.ok.inj ((show _ = Except.ok ["Runnable", "Object"] from rfl).symm.trans
      habove)
    exact Or.inr (Or.inl (by decide))
  · have hcases := hiff'.1 htrue
    obtain rfl := Except.ok.inj ((show _ = Except.ok "app.Task" from rfl).symm.trans htype')
    obtain rfl := Except.ok.inj ((show _ = Except.ok ["Runnable", "Object"] from rfl).symm.trans
      habove')
    obtain rfl := Except.ok.inj ((show _ = Except.ok ["Closeable"] by decide +kernel).symm.trans
      hinterfaces)
    exact absurd hcases (by decide)

/-! ## Interfaces -/

/-- The supertypes of an interface are the interface, those that it extends, and the root if one of
these is an external type that somewhere stands as a superclass. -/
theorem isSubtypeOf_iff_of_interface
    (hbuild : (Hierarchy.build settings declarations).value = .ok h)
    {d : Declaration} (hd : d ∈ declarations) (hinterface : d.kind = .interface) {name : TypeName}
    (hname : h.contains name = true) :
    ∃ type interfaces answer, h.canonical name = .ok type ∧
      type = (if settings.isRoot name then h.rootName else name) ∧
      h.interfacesOf d.name = .ok interfaces ∧ h.isSubtypeOf d.name name = .ok answer ∧
      (answer = true ↔ type = d.name ∨ type ∈ interfaces ∨
        type = h.rootName ∧ ∃ e, h.node e.name = .ok (.external e) ∧ e.name ∈ interfaces ∧
          ∃ c ∈ declarations, c.kind.isClass = true ∧
            h.superclassOf c.name = .ok (some e.name)) := by
  obtain ⟨links, hb⟩ := Hierarchy.built_of_build hbuild
  have hself := hb.canonical_of_declared hd
  have htype := hb.canonical_of_contains hname
  obtain ⟨answer, hanswer, hiff⟩ := hb.isSubtypeOf_eq hd htype
  refine ⟨_, _, answer, htype, rfl, Hierarchy.interfacesOf_of_canonical hself, hanswer, ?_⟩
  have hclass : d.kind.isClass = false := congrArg TypeKind.isClass hinterface
  have hnil := hb.ancestors_eq_nil (hb.linkage.superclass?_of_not_isClass hd hclass)
  rw [hiff, hb.reaches_iff, hnil, List.mem_singleton]
  refine or_congr_right (or_congr_right (and_congr_right fun _ => ?_))
  constructor
  · rintro ⟨i, hi, hsuper⟩
    obtain ⟨_, -, himpl⟩ := Graph.mem_interfacesOfAll.1 hi
    obtain ⟨-, e, he, rfl⟩ := hb.superclass?_of_implements himpl hsuper
    have hn : Node.external e ∈ h.graph.nodes := Graph.mem_nodes.2 (Or.inr (Or.inr ⟨e, he, rfl⟩))
    exact ⟨e, hb.node_name hn, hi, (hb.under_root_iff he).1 hsuper⟩
  · rintro ⟨e, hnode, hi, hextended⟩
    have he : e ∈ h.graph.externals := by
      rcases Graph.mem_nodes.1 (hb.mem_nodes_of_node hnode) with heq | ⟨_, -, heq⟩ | ⟨_, he, heq⟩
      · exact nomatch heq
      · exact nomatch heq
      · exact Node.external.inj heq ▸ he
    exact ⟨e.name, hi, (hb.under_root_iff he).2 hextended⟩

theorem isSubtypeOf_task :
    ∃ h answer, (Hierarchy.build {} lateClass).value = .ok h ∧
      h.isSubtypeOf "app.Task" "java.lang.Object" = .ok answer ∧ answer = true := by
  obtain ⟨_, interfaces, answer, htype, -, hinterfaces, hanswer, hiff⟩ :=
    isSubtypeOf_iff_of_interface build_lateClass (show lateClass[0] ∈ lateClass by decide) rfl
      (show Hierarchy.contains _ "java.lang.Object" = true by decide)
  refine ⟨_, answer, build_lateClass, hanswer, hiff.2 (Or.inr (Or.inr ?_))⟩
  obtain rfl := Except.ok.inj ((show _ = Except.ok "Object" from rfl).symm.trans htype)
  obtain rfl := Except.ok.inj ((show _ = Except.ok ["Runnable"] by decide +kernel).symm.trans
    hinterfaces)
  exact ⟨rfl, ⟨"Runnable", .asInterface⟩, rfl, by decide, lateClass[1], by decide, rfl, rfl⟩

/-- An interface that is below the root because of a class that has nothing to do with it. -/
theorem interface_below_root :
    (∃ h, (Hierarchy.build {} (lateClass.take 1)).value = .ok h ∧
      h.isSubtypeOf "app.Task" "Object" = .ok false) ∧
    ∃ h, (Hierarchy.build {} lateClass).value = .ok h ∧ h.canonical "Object" = .ok "Object" ∧
      h.kindOf "app.Task" = .ok (some .interface) ∧ h.ancestorsOf "app.Task" = .ok [] ∧
      h.interfacesOf "app.Task" = .ok ["Runnable"] ∧
      h.isSubtypeOf "app.Task" "Object" = .ok true ∧
      ¬ ("Object" = "app.Task" ∨ "Object" ∈ ["Runnable"]) := by
  constructor
  · exact ⟨_, Hierarchy.value_build_of_run (show Linking.run {} (lateClass.take 1) = .ok _ from rfl)
      (by decide +kernel), by decide +kernel⟩
  · exact ⟨_, build_lateClass, rfl, rfl, rfl, by decide +kernel, by decide +kernel, by decide⟩

end Results

end Lineage
