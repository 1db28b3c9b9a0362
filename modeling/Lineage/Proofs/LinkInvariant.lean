import Lineage.Proofs.ClassTree

/-!
# What linking keeps up

Whatever declarations are linked, in whatever order external types come up, and however far linking
has got: names stand for their nodes, each class linked so far has one superclass, external types
lie under the root exactly if they are extended, and interfaces come in the order of their
references (`LinkInvariant`). So no linked type ever has two superclasses
(`linkInvariant_of_foldlM`).
-/

namespace Lineage

/-- What holds of the graph of some declarations when the references in the first of them, those
that are done, are linked. -/
structure LinkInvariant (settings : Resolver) (declarations done : List Declaration) (g : Graph) :
    Prop where
  declared : g.declared = declarations
  nodup_names : g.nodeNames.Nodup
  found : ∀ n ∈ g.nodes, g.node? n.name = some n
  root_found : ∀ name, settings.isRoot name = true → g.node? name = some (.root g.root)
  names : ∀ name n, g.node? name = some n →
    n ∈ g.nodes ∧ if settings.isRoot name then n = .root g.root else n.name = name
  classes : ∀ d ∈ done, d.kind.isClass = true → ∃ target, g.targets d.name .extension = [target] ∧
    settings.SuperclassMeans declarations g.nodeCount d (some target)
  interfaces : ∀ d ∈ done, d.kind.isClass = false → g.targets d.name .extension = []
  root : ∀ e ∈ g.edges, e.source ≠ g.root
  /-- An external type leads to the root if a class that is done extends it, and nowhere else. -/
  externals : ∀ e ∈ g.externals,
    (∃ d ∈ done, d.kind.isClass = true ∧ g.targets d.name .extension = [e.name]) ∧
        g.edges.filter (·.source = e.name) = [⟨e.name, .extension, g.root⟩] ∨
      ¬ (∃ d ∈ done, d.kind.isClass = true ∧ g.targets d.name .extension = [e.name]) ∧
        g.edges.filter (·.source = e.name) = []
  implemented : ∀ d ∈ done, List.Forall₂ (settings.Means declarations g.nodeCount d.name)
    d.interfaces (g.targets d.name .implementation)
  enclosures : ∀ e ∈ g.edges, e.kind = .enclosure → e.source ∈ g.typeNames ∧ e.target ∈ g.typeNames
  enclosed : ∀ name, (g.sources name .enclosure).length ≤ 1

namespace Graph

theorem sources_enclosure (g : Graph) (name : TypeName) :
    g.sources name .enclosure = g.nesting.successors name := by
  rw [successors_nesting_eq]
  unfold sources
  simp only [Bool.decide_and]

end Graph

namespace PartialLinkage

variable {settings : Resolver} {declarations : List Declaration}
  {links : List (Declaration × Links)} {g : Graph}

theorem name_of_node? (h : PartialLinkage settings declarations links g) {name : TypeName}
    {n : Node} (hnode : g.node? name = some n) :
    if settings.isRoot name then n = .root g.root else n.name = name := by
  have hname := Graph.name_of_node? hnode
  rw [h.linked.isRootName] at hname
  split_ifs at hname ⊢ with hroot
  · unfold Graph.node? at hnode
    rw [h.linked.isRootName, if_pos hroot] at hnode
    exact (Option.some.inj hnode).symm
  · exact hname

theorem source_ne_root (h : PartialLinkage settings declarations links g) {e : Edge}
    (he : e ∈ g.edges) : e.source ≠ g.root := by
  intro hsource
  rcases h.filter_source_of_not_declared h.root_not_mem with ⟨⟨hforeign, -⟩, -⟩ | ⟨-, hnone⟩
  · exact h.linked.not_foreign_root hforeign
  · exact (List.filter_eq_nil_iff.1 hnone) e he (decide_eq_true hsource)

theorem extended_iff_targets (h : PartialLinkage settings declarations links g)
    {name : TypeName} : Extended (ownEdges links) name ↔
      ∃ d ∈ links.map (·.1), d.kind.isClass = true ∧ g.targets d.name .extension = [name] := by
  rw [h.extended_iff]
  constructor
  · rintro ⟨⟨d, k⟩, hk, hclass, hsuper⟩
    refine ⟨d, List.mem_map_of_mem hk, hclass, ?_⟩
    rw [h.targets_extension hk, hsuper]
    rfl
  · rintro ⟨d, hd, hclass, htargets⟩
    obtain ⟨⟨d, k⟩, hk, rfl⟩ := List.mem_map.1 hd
    rw [h.targets_extension hk] at htargets
    exact ⟨_, hk, hclass, Option.toList_eq_singleton_iff.1 htargets⟩

theorem declared_of_enclosure (h : PartialLinkage settings declarations links g) {e : Edge}
    (he : e ∈ g.edges) (hkind : e.kind = .enclosure) :
    e.source ∈ g.typeNames ∧ e.target ∈ g.typeNames := by
  rw [h.linked.typeNames_eq]
  rcases h.mem_edges.1 he with hown | ⟨_, -, -, rfl⟩
  · obtain ⟨p, hp, hmem⟩ := List.mem_flatMap.1 hown
    rcases Links.mem_edges.1 hmem with ⟨_, -, rfl⟩ | ⟨_, -, rfl⟩ | ⟨outer, houter, rfl⟩
    · exact nomatch hkind
    · exact nomatch hkind
    · have hmeans := (h.reads p hp).outer
      rw [houter] at hmeans
      exact ⟨hmeans.mem_names, List.mem_map_of_mem (h.mem_declarations hp)⟩
  · exact nomatch hkind

/-- A partly linked graph keeps up all of this. -/
theorem invariant (h : PartialLinkage settings declarations links g) :
    LinkInvariant settings declarations (links.map (·.1)) g where
  declared := h.linked.declared
  nodup_names := h.nodup_nodeNames
  found := fun _ => h.node?_name
  root_found := by
    intro name hroot
    rw [← h.linked.isRootName] at hroot
    exact h.node?_eq_some_iff.2 (Or.inl ⟨hroot, rfl⟩)
  names := fun _ _ hnode => ⟨h.mem_nodes_of_node? hnode, h.name_of_node? hnode⟩
  classes := by
    intro d hd hclass
    obtain ⟨⟨d, k⟩, hk, rfl⟩ := List.mem_map.1 hd
    have hmeans := (h.reads _ hk).superclass
    obtain ⟨target, hsuper⟩ := hmeans.exists_of_isClass hclass
    refine ⟨target, ?_, hsuper ▸ hmeans⟩
    rw [h.targets_extension hk, hsuper]
    rfl
  interfaces := by
    intro d hd hclass
    obtain ⟨⟨d, k⟩, hk, rfl⟩ := List.mem_map.1 hd
    rw [h.targets_extension hk, (h.reads _ hk).superclass.eq_none_of_not_isClass hclass]
    rfl
  root := fun _ => h.source_ne_root
  externals := by
    intro e he
    have hforeign := h.foreign_of_external (List.mem_map_of_mem he)
    rw [← h.extended_iff_targets, h.linked.root]
    rcases h.filter_source_of_not_declared hforeign.1 with ⟨⟨-, hext⟩, heq⟩ | ⟨hnot, heq⟩
    · exact Or.inl ⟨hext, heq⟩
    · exact Or.inr ⟨fun hext => hnot ⟨hforeign, hext⟩, heq⟩
  implemented := by
    intro d hd
    obtain ⟨⟨d, k⟩, hk, rfl⟩ := List.mem_map.1 hd
    rw [h.targets_implementation hk]
    exact (h.reads _ hk).interfaces
  enclosures := fun _ => h.declared_of_enclosure
  enclosed := by
    intro name
    rw [Graph.sources_enclosure]
    exact h.length_successors_nesting_le name

end PartialLinkage

/-- After the references of the first declarations are linked, the invariant holds, and no
hierarchy is refused because a type has two superclasses. -/
theorem linkInvariant_of_foldlM (settings : Resolver) (declarations : List Declaration) :
    (∀ done g l, done <+: declarations → Graph.ofDeclarations settings declarations = .ok g →
      done.foldlM (Linking.declaration settings) ⟨g, []⟩ = .ok l →
      LinkInvariant settings declarations done l.graph) ∧
    ∀ name, (Hierarchy.build settings declarations).value ≠ .error (.multipleInheritance name) := by
  constructor
  · intro done g l hdone hnew hrun
    rcases Graph.ofDeclarations_spec settings declarations with ⟨hnamed, heq⟩ | ⟨-, _, heq⟩
    · obtain rfl := Except.ok.inj (heq.symm.trans hnew)
      obtain ⟨links, rfl, hlinks⟩ := partialLinkage_of_foldlM hnamed hdone hrun
      exact hlinks.invariant
    · exact nomatch heq.symm.trans hnew
  · intro name hvalue
    have hends := run_ends settings declarations
    rw [Hierarchy.value_build] at hvalue
    cases hrun : Linking.run settings declarations with
    | error failure =>
      rw [hrun] at hends hvalue
      have herror : failure.error = .multipleInheritance name := Except.error.inj hvalue
      rcases hends with ⟨-, other, heq⟩ | ⟨-, d, -, reference, nodes, heq, -⟩
      · exact nomatch heq.symm.trans herror
      · exact nomatch heq.symm.trans herror
    | ok l =>
      obtain ⟨links, hlinks⟩ := linkage_of_run hrun
      simp only [hrun] at hvalue
      cases hfault : l.graph.fault? with
      | none =>
        rw [hfault] at hvalue
        exact nomatch hvalue
      | some error =>
        rw [hfault] at hvalue
        obtain rfl := Except.error.inj hvalue
        exact hlinks.fault?_ne_multipleInheritance name hfault

/-- The invariant in the middle of linking and at its end: an external type comes under the root
only with the class that extends it. -/
theorem linkInvariant_lateClass :
    ∃ g before after, Graph.ofDeclarations {} lateClass = .ok g ∧
      (lateClass.take 1).foldlM (Linking.declaration {}) ⟨g, []⟩ = .ok before ∧
      LinkInvariant {} lateClass (lateClass.take 1) before.graph ∧
      before.graph.edges.filter (·.source = "Runnable") = [] ∧
      lateClass.foldlM (Linking.declaration {}) ⟨g, []⟩ = .ok after ∧
      LinkInvariant {} lateClass lateClass after.graph ∧
      after.graph.edges.filter (·.source = "Runnable") = [⟨"Runnable", .extension, "Object"⟩] := by
  obtain ⟨hkept, -⟩ := linkInvariant_of_foldlM {} lateClass
  have hnew : Graph.ofDeclarations {} lateClass = .ok (Graph.unlinked {} lateClass) := rfl
  exact ⟨_, _, _, hnew, rfl, hkept _ _ _ (List.take_prefix 1 _) hnew rfl, rfl, rfl,
    hkept _ _ _ List.prefix_rfl hnew rfl, rfl⟩

end Lineage
