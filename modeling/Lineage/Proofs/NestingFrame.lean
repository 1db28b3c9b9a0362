import Lineage.Proofs.SameInheritance

/-!
# Nesting and inheritance

Where all supertypes are named exactly, references are linked to the types of their names, whatever
lies around a type (`Linkage.filter_inheritance`). So declarations that differ only in the types
around them make graphs with the same inheritance, though other edges stand between those of
inheritance, and all questions about supertypes have the same answers (`enclosingType_frame`).
-/

namespace Lineage

/-- A declaration without what it says about the type around it. -/
def Declaration.unnested (d : Declaration) : Declaration :=
  { d with enclosingType := none }

/-- Two declarations that differ at most in the types around them. -/
def Declaration.SameUnnested (d d' : Declaration) : Prop :=
  d.unnested = d'.unnested

/-- All supertypes are named exactly, by the names of declared types. -/
def ExactSupertypes (declarations : List Declaration) : Prop :=
  ∀ d ∈ declarations, ∀ reference ∈ d.supertypes, reference ∈ declarations.map (·.name)

instance (declarations : List Declaration) : Decidable (ExactSupertypes declarations) :=
  inferInstanceAs (Decidable (∀ d ∈ declarations, ∀ reference ∈ d.supertypes,
    reference ∈ declarations.map (·.name)))

/-- The edges to the supertypes of a declaration, if it names them exactly. -/
def Declaration.exactEdges (root : TypeName) (d : Declaration) : List Edge :=
  (if d.kind.isClass then [⟨d.name, .extension, d.superclass.getD root⟩] else []) ++
    d.interfaces.map (⟨d.name, .implementation, ·⟩)

namespace Declaration.SameUnnested

variable {d d' : Declaration} (h : d.SameUnnested d')

include h

/-- What the type around a declaration has no part in is the same. -/
theorem congr {α : Type} {f : Declaration → α} (hf : ∀ d, f d.unnested = f d) : f d = f d' := by
  rw [← hf d, show d.unnested = d'.unnested from h, hf]

theorem name_eq : d.name = d'.name :=
  h.congr fun _ => rfl

theorem kind_eq : d.kind = d'.kind :=
  h.congr fun _ => rfl

theorem sameMethods : d.SameMethods d' where
  name := h.name_eq
  abstracts := h.congr fun _ => rfl
  concretes := h.congr fun _ => rfl

theorem exactEdges_eq (root : TypeName) : d.exactEdges root = d'.exactEdges root :=
  h.congr fun _ => rfl

end Declaration.SameUnnested

theorem forall₂_sameUnnested {declarations declarations' : List Declaration}
    (h : declarations.map Declaration.unnested = declarations'.map Declaration.unnested) :
    List.Forall₂ Declaration.SameUnnested declarations declarations' := by
  rw [← List.forall₂_eq_eq_eq, List.forall₂_map_left_iff, List.forall₂_map_right_iff] at h
  exact h

theorem exactSupertypes_map_unnested {declarations : List Declaration} :
    ExactSupertypes (declarations.map Declaration.unnested) ↔ ExactSupertypes declarations := by
  unfold ExactSupertypes
  rw [List.forall_mem_map, List.map_map]
  rfl

/-! ## Exact references -/

namespace Resolver

variable {settings : Resolver} {declarations : List Declaration} {limit : Nat} {d : Declaration}
  {k : Links}

theorem Means.eq_of_mem {source reference target : TypeName}
    (h : settings.Means declarations limit source reference target)
    (hmem : reference ∈ declarations.map (·.name)) : target = reference := by
  obtain ⟨nodes, -, -, hmeaning⟩ := h
  obtain ⟨d, hd⟩ := Option.isSome_iff_exists.1
    (Graph.declared?_isSome_iff.2
      (show reference ∈ (Graph.unlinked settings declarations).typeNames from hmem))
  unfold meaning Graph.lookupWithin at hmeaning
  rw [hd] at hmeaning
  exact (Option.some.inj hmeaning).symm.trans (Graph.mem_of_declared? hd).2

theorem Reads.interfaces_eq (h : settings.Reads declarations limit d k)
    (hexact : ∀ reference ∈ d.supertypes, reference ∈ declarations.map (·.name)) :
    k.interfaces = d.interfaces := by
  refine (List.forall₂_eq_eq_eq ▸ ?_ : d.interfaces = k.interfaces).symm
  exact forall₂_imp_of_mem h.interfaces fun reference hmem target hmeans =>
    (hmeans.eq_of_mem (hexact reference (Declaration.mem_supertypes.2 (Or.inr hmem)))).symm

theorem Reads.superclass_eq (h : settings.Reads declarations limit d k)
    (hexact : ∀ reference ∈ d.supertypes, reference ∈ declarations.map (·.name)) :
    k.superclass =
      if d.kind.isClass then some (d.superclass.getD settings.rootType) else none := by
  by_cases hclass : d.kind.isClass = true
  · rw [if_pos hclass]
    cases hsuper : d.superclass with
    | none =>
      have hmeans := h.superclass
      unfold SuperclassMeans at hmeans
      rw [if_pos hclass, hsuper] at hmeans
      exact hmeans
    | some reference =>
      obtain ⟨name, heq, hmeans⟩ := h.superclass.of_named hclass hsuper
      have hmem := hexact reference (Declaration.mem_supertypes.2 (Or.inl ⟨hclass, hsuper⟩))
      rw [heq, hmeans.eq_of_mem hmem]
      rfl
  · rw [if_neg hclass]
    exact h.superclass.eq_none_of_not_isClass (Bool.eq_false_iff.2 hclass)

theorem Reads.filter_inheritance (h : settings.Reads declarations limit d k)
    (hexact : ∀ reference ∈ d.supertypes, reference ∈ declarations.map (·.name)) :
    (k.edges d.name).filter (·.kind.isInheritance) = d.exactEdges settings.rootType := by
  unfold Links.edges Declaration.exactEdges
  rw [h.superclass_eq hexact, h.interfaces_eq hexact]
  split_ifs <;> simp [List.filter_map, Function.comp_def, EdgeKind.isInheritance]

end Resolver

namespace Linkage

variable {settings : Resolver} {declarations declarations' : List Declaration}
  {links links' : List (Declaration × Links)} {g g' : Graph}

/-- Where all supertypes are named exactly, only declared types and the root are any. -/
theorem not_foreign_of_inherited (h : Linkage settings declarations links g)
    (hexact : ExactSupertypes declarations) {name : TypeName}
    (hname : Inherited (ownEdges links) name) : ¬ settings.Foreign declarations name := by
  rintro ⟨hnot, hroot⟩
  obtain ⟨source, role, hmem⟩ := hname
  obtain ⟨p, hp, hedge⟩ := List.mem_flatMap.1 hmem
  have hd : p.1 ∈ declarations := h.mem_declarations hp
  have hinheritance : (⟨source, role.edgeKind, name⟩ : Edge) ∈
      p.1.exactEdges settings.rootType := by
    rw [← (h.reads p hp).filter_inheritance (hexact p.1 hd)]
    exact List.mem_filter.2 ⟨hedge, by cases role <;> rfl⟩
  unfold Declaration.exactEdges at hinheritance
  rcases List.mem_append.1 hinheritance with hsuper | hinterface
  · split_ifs at hsuper with hclass
    · obtain rfl : name = p.1.superclass.getD settings.rootType :=
        congrArg Edge.target (List.mem_singleton.1 hsuper)
      cases hsuperclass : p.1.superclass with
      | none =>
        rw [hsuperclass] at hroot
        rw [Option.getD_none, settings.isRoot_rootType] at hroot
        exact nomatch hroot
      | some reference =>
        rw [hsuperclass] at hnot
        exact hnot (hexact p.1 hd reference
          (Declaration.mem_supertypes.2 (Or.inl ⟨hclass, hsuperclass⟩)))
    · exact absurd hsuper List.not_mem_nil
  · obtain ⟨reference, hreference, heq⟩ := List.mem_map.1 hinterface
    obtain rfl : reference = name := congrArg Edge.target heq
    exact hnot (hexact p.1 hd reference (Declaration.mem_supertypes.2 (Or.inr hreference)))

theorem externals_eq_nil (h : Linkage settings declarations links g)
    (hexact : ExactSupertypes declarations) : g.externals = [] := by
  rw [← List.map_eq_nil_iff (f := External.name), List.eq_nil_iff_forall_not_mem]
  intro name hname
  obtain ⟨hforeign, hinherited⟩ := (h.linked.mem_externals name).1 hname
  exact h.not_foreign_of_inherited hexact hinherited hforeign

theorem filter_inheritance (h : Linkage settings declarations links g)
    (hexact : ExactSupertypes declarations) :
    g.edges.filter (·.kind.isInheritance) =
      declarations.flatMap (·.exactEdges settings.rootType) := by
  have hown : g.edges = ownEdges links := by
    rw [← h.linked.ownEdges, eq_comm, List.filter_eq_self]
    intro e he
    rcases h.mem_edges.1 he with hmem | ⟨name, hforeign, hextended, -⟩
    · rw [← h.linked.ownEdges] at hmem
      exact (List.mem_filter.1 hmem).2
    · exact absurd hforeign (h.not_foreign_of_inherited hexact hextended.inherited)
  rw [hown, ownEdges, List.filter_flatMap, ← h.fst_eq, List.flatMap_map]
  refine List.flatMap_congr fun p hp => ?_
  exact (h.reads p hp).filter_inheritance (hexact p.1 (h.mem_declarations hp))

/-- Declarations that differ only in the types around them make graphs with the same inheritance. -/
theorem sameInheritance (h : Linkage settings declarations links g)
    (h' : Linkage settings declarations' links' g') (hexact : ExactSupertypes declarations)
    (hsame : declarations.map Declaration.unnested = declarations'.map Declaration.unnested) :
    SameInheritance Declaration.SameUnnested g g' := by
  have hexact' : ExactSupertypes declarations' := by
    rw [← exactSupertypes_map_unnested, ← hsame]
    exact exactSupertypes_map_unnested.2 hexact
  have hall := forall₂_sameUnnested hsame
  refine ⟨fun _ _ => Declaration.SameUnnested.name_eq, fun _ _ => Declaration.SameUnnested.kind_eq,
    ?_, ?_, ?_, ?_, ?_⟩
  · rw [h.linked.root, h'.linked.root]
  · rw [h.linked.aliases, h'.linked.aliases]
  · rw [h.linked.declared, h'.linked.declared]
    exact hall
  · rw [h.externals_eq_nil hexact, h'.externals_eq_nil hexact']
  · rw [h.filter_inheritance hexact, h'.filter_inheritance hexact']
    exact flatMap_eq_of_forall₂ hall fun _ _ hd => hd.exactEdges_eq settings.rootType

end Linkage

/-! ## Methods owed -/

theorem Hierarchy.Built.owedBy_eq {settings : Resolver}
    {declarations declarations' : List Declaration} {links links' : List (Declaration × Links)}
    {h h' : Hierarchy}
    (hb : Built settings declarations links h) (hb' : Built settings declarations' links' h')
    (hs : SameInheritance Declaration.SameUnnested h.graph h'.graph) (name : TypeName) :
    h.owedBy name = h'.owedBy name := by
  have hlookup : ∀ type, h.obligations.lookup type = h'.obligations.lookup type := by
    intro type
    rw [hb.lookup_obligations, hb'.lookup_obligations]
    have hrel := hs.rel_declared? type
    generalize h.graph.declared? type = o, h'.graph.declared? type = o' at hrel ⊢
    cases hrel with
    | none => rfl
    | @some d d' hd =>
      rw [Option.filter_some, Option.filter_some, hs.kind_eq d d' hd]
      split_ifs
      · exact congrArg some (hs.owed_eq hb.acyclic_inheritance hd fun _ _ hc _ => hc.sameMethods)
      · rfl
  unfold owedBy
  simp only [hs.canonical_eq, hlookup]

/-- If all supertypes are named exactly, then types around types make no difference to inheritance:
both checks of it find the same, and all questions about supertypes and the methods owed have the
same answers. -/
theorem enclosingType_frame {settings : Resolver} {declarations declarations' : List Declaration}
    (hexact : ExactSupertypes declarations)
    (hsame : declarations.map Declaration.unnested = declarations'.map Declaration.unnested)
    {l l' : Linking} (hrun : Linking.run settings declarations = .ok l)
    (hrun' : Linking.run settings declarations' = .ok l') :
    l.graph.inheritanceCycle? = l'.graph.inheritanceCycle? ∧
    l.graph.kindMismatch? = l'.graph.kindMismatch? ∧
    ∀ h h', (Hierarchy.build settings declarations).value = .ok h →
      (Hierarchy.build settings declarations').value = .ok h' → ∀ name,
        h.superclassOf name = h'.superclassOf name ∧ h.ancestorsOf name = h'.ancestorsOf name ∧
        h.interfacesOf name = h'.interfacesOf name ∧
        (∀ super, h.isSubtypeOf name super = h'.isSubtypeOf name super) ∧
        h.subtypesOf name = h'.subtypesOf name ∧ h.owedBy name = h'.owedBy name := by
  obtain ⟨links, hlinks⟩ := linkage_of_run hrun
  obtain ⟨links', hlinks'⟩ := linkage_of_run hrun'
  have hgraph := hlinks.sameInheritance hlinks' hexact hsame
  refine ⟨hgraph.inheritanceCycle?, hgraph.kindMismatch?, fun h h' hbuild hbuild' name => ?_⟩
  obtain ⟨_, hb⟩ := Hierarchy.built_of_build hbuild
  obtain ⟨_, hb'⟩ := Hierarchy.built_of_build hbuild'
  have hs := hb.linkage.sameInheritance hb'.linkage hexact hsame
  have hacyclic := hb.acyclic_inheritance
  exact ⟨hs.superclassOf_eq name, hs.ancestorsOf_eq hacyclic name, hs.interfacesOf_eq hacyclic name,
    hs.isSubtypeOf_eq name, hs.subtypesOf_eq name, hb.owedBy_eq hb' hs name⟩

/-- A class under an abstract class and an interface, perhaps inside another type. -/
def innerJob (outer : Option TypeName) : List Declaration :=
  [{ name := "app.Base", kind := .abstractClass, methods := [⟨⟨"run", []⟩, true⟩] },
    { name := "app.Job", kind := .concreteClass, superclass := some "app.Base",
      interfaces := ["app.Task"], enclosingType := outer },
    { name := "app.Task", kind := .interface, methods := [⟨⟨"rest", []⟩, true⟩] }]

theorem enclosingType_frame_innerJob :
    ExactSupertypes (innerJob none) ∧
    (innerJob none).map Declaration.unnested =
      (innerJob (some "Task")).map Declaration.unnested ∧
    ∃ h h', (Hierarchy.build .closed (innerJob none)).value = .ok h ∧
      (Hierarchy.build .closed (innerJob (some "Task"))).value = .ok h' ∧
      h.enclosingChainOf "app.Job" = .ok [] ∧ h'.enclosingChainOf "app.Job" = .ok ["app.Task"] ∧
      h.ancestorsOf "app.Job" = h'.ancestorsOf "app.Job" ∧
      h.owedBy "app.Job" = h'.owedBy "app.Job" := by
  have hexact : ExactSupertypes (innerJob none) := by decide
  have hsame : (innerJob none).map Declaration.unnested =
    (innerJob (some "Task")).map Declaration.unnested := rfl
  have hrun : Linking.run .closed (innerJob none) = .ok _ := rfl
  have hrun' : Linking.run .closed (innerJob (some "Task")) = .ok _ := rfl
  have hbuild := Hierarchy.value_build_of_run hrun (by decide +kernel)
  have hbuild' := Hierarchy.value_build_of_run hrun' (by decide +kernel)
  obtain ⟨-, -, hanswers⟩ := enclosingType_frame hexact hsame hrun hrun'
  obtain ⟨-, hancestors, -, -, -, howed⟩ := hanswers _ _ hbuild hbuild' "app.Job"
  exact ⟨hexact, hsame, _, _, hbuild, hbuild', rfl, rfl, hancestors, howed⟩

end Lineage
