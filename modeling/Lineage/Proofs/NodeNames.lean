import Lineage.Proofs.Built

/-!
# Nodes and their names

A linked graph finds every node under its own name, and the root under its aliases as well
(`node?_eq_some_iff`). Its edges lead from nodes to nodes (`mem_nodeNames_of_mem_edges`), which have
different names.
-/

namespace Lineage

namespace Graph

/-- The nodes of a graph: the root, the declared types, the external ones. -/
def nodes (g : Graph) : List Node :=
  .root g.root :: g.declared.map .declared ++ g.externals.map .external

variable {g : Graph} {name : TypeName} {n : Node}

theorem map_name_nodes (g : Graph) : g.nodes.map (·.name) = g.nodeNames := by
  simp [nodes, nodeNames, Node.name, Function.comp_def]

theorem mem_nodes : n ∈ g.nodes ↔ n = .root g.root ∨ (∃ d ∈ g.declared, n = .declared d) ∨
    ∃ e ∈ g.externals, n = .external e := by
  simp [nodes, eq_comm]

theorem mem_nodeNames : name ∈ g.nodeNames ↔
    name = g.root ∨ name ∈ g.typeNames ∨ name ∈ g.externals.map (·.name) := by
  unfold nodeNames typeNames
  rw [List.mem_append, List.mem_cons, or_assoc]

end Graph

/-! ## Nodes of linked graphs -/

namespace PartialLinkage

variable {settings : Resolver} {declarations : List Declaration}
  {links : List (Declaration × Links)} {g : Graph} {name : TypeName} {n : Node}

theorem isRootName_root (h : PartialLinkage settings declarations links g) :
    g.isRootName g.root = true := by
  rw [h.linked.isRootName, h.linked.root, Resolver.isRoot_rootType]

theorem isRootName_of_declared (h : PartialLinkage settings declarations links g)
    (hname : name ∈ g.typeNames) : g.isRootName name = false := by
  rw [h.linked.typeNames_eq] at hname
  obtain ⟨d, hd, rfl⟩ := List.mem_map.1 hname
  rw [h.linked.isRootName]
  exact h.named.noRoot d hd

theorem foreign_of_external (h : PartialLinkage settings declarations links g)
    (hname : name ∈ g.externals.map (·.name)) : settings.Foreign declarations name :=
  ((h.linked.mem_externals name).1 hname).1

theorem isRootName_of_external (h : PartialLinkage settings declarations links g)
    (hname : name ∈ g.externals.map (·.name)) : g.isRootName name = false := by
  rw [h.linked.isRootName]
  exact (h.foreign_of_external hname).2

theorem external?_eq_some_iff (h : PartialLinkage settings declarations links g) {e : External} :
    g.external? name = some e ↔ e ∈ g.externals ∧ e.name = name :=
  find?_name_eq_some_iff h.linked.nodup_externals

/-- The root is found under all its names, and every other node under its own one. -/
theorem node?_eq_some_iff (h : PartialLinkage settings declarations links g) :
    g.node? name = some n ↔
      (g.isRootName name = true ∧ n = .root g.root) ∨
        (∃ d ∈ g.declared, name = d.name ∧ n = .declared d) ∨
        ∃ e ∈ g.externals, name = e.name ∧ n = .external e := by
  unfold Graph.node?
  by_cases hroot : g.isRootName name = true
  · have hdeclared : ∀ d ∈ g.declared, name ≠ d.name := by
      rintro d hd rfl
      rw [h.isRootName_of_declared (List.mem_map_of_mem hd)] at hroot
      exact nomatch hroot
    have hexternal : ∀ e ∈ g.externals, name ≠ e.name := by
      rintro e he rfl
      rw [h.isRootName_of_external (List.mem_map_of_mem he)] at hroot
      exact nomatch hroot
    rw [if_pos hroot, Option.some.injEq]
    grind
  · rw [if_neg hroot]
    cases hdeclared : g.declared? name with
    | some d =>
      have hmem : d ∈ g.declared ∧ d.name = name := Graph.mem_of_declared? hdeclared
      have hexternal : ∀ e ∈ g.externals, name ≠ e.name := by
        rintro e he rfl
        exact (h.foreign_of_external (List.mem_map_of_mem he)).1
          (h.linked.typeNames_eq ▸ hmem.2 ▸ List.mem_map_of_mem hmem.1)
      have hunique : ∀ e ∈ g.declared, name = e.name → e = d := by
        intro e he heq
        have hfound := h.declared?_eq_some_iff.2 ⟨h.linked.declared ▸ he, heq.symm⟩
        exact Option.some.inj (hfound.symm.trans hdeclared)
      grind
    | none =>
      have hnot : ∀ d ∈ g.declared, name ≠ d.name := by
        rintro d hd rfl
        exact Graph.declared?_eq_none_iff.1 hdeclared (List.mem_map_of_mem hd)
      rw [Option.map_eq_some_iff]
      simp only [h.external?_eq_some_iff]
      grind

theorem node?_name (h : PartialLinkage settings declarations links g) (hn : n ∈ g.nodes) :
    g.node? n.name = some n := by
  rw [h.node?_eq_some_iff]
  rcases Graph.mem_nodes.1 hn with rfl | ⟨d, hd, rfl⟩ | ⟨e, he, rfl⟩
  · exact Or.inl ⟨h.isRootName_root, rfl⟩
  · exact Or.inr (Or.inl ⟨d, hd, rfl, rfl⟩)
  · exact Or.inr (Or.inr ⟨e, he, rfl, rfl⟩)

theorem mem_nodes_of_node? (h : PartialLinkage settings declarations links g)
    (hnode : g.node? name = some n) : n ∈ g.nodes := by
  rw [h.node?_eq_some_iff] at hnode
  rw [Graph.mem_nodes]
  grind

/-- No two nodes share a name. -/
theorem nodup_nodeNames (h : PartialLinkage settings declarations links g) :
    g.nodeNames.Nodup := by
  have hexternal : ∀ name ∈ g.externals.map (·.name), name ≠ g.root ∧ name ∉ g.typeNames := by
    intro name hname
    have hforeign := h.foreign_of_external hname
    refine ⟨?_, h.linked.typeNames_eq ▸ hforeign.1⟩
    rintro rfl
    exact h.linked.not_foreign_root hforeign
  have hroot : g.root ∉ g.typeNames := h.linked.typeNames_eq ▸ h.root_not_mem
  have htypes : g.typeNames.Nodup := h.linked.typeNames_eq ▸ h.named.nodup
  show (g.root :: g.typeNames ++ g.externals.map (·.name)).Nodup
  rw [List.nodup_append']
  refine ⟨List.nodup_cons.2 ⟨hroot, htypes⟩, h.linked.nodup_externals, ?_⟩
  intro name hname hin
  rcases List.mem_cons.1 hname with rfl | hname
  · exact (hexternal _ hin).1 rfl
  · exact (hexternal _ hin).2 hname

/-! ## Ends of edges -/

theorem mem_nodeNames_of_declared (h : PartialLinkage settings declarations links g)
    (hname : name ∈ declarations.map (·.name)) : name ∈ g.nodeNames :=
  Graph.mem_nodeNames.2 (Or.inr (Or.inl (h.linked.typeNames_eq ▸ hname)))

/-- What an inheritance edge of a declaration leads to is a node. -/
theorem mem_nodeNames_of_inherited (h : PartialLinkage settings declarations links g)
    (hedge : Inherited (ownEdges links) name)
    (hcases : name ∈ declarations.map (·.name) ∨ name = settings.rootType ∨
      settings.Foreign declarations name) : name ∈ g.nodeNames := by
  rcases hcases with hmem | rfl | hforeign
  · exact h.mem_nodeNames_of_declared hmem
  · exact Graph.mem_nodeNames.2 (Or.inl h.linked.root.symm)
  · exact Graph.mem_nodeNames.2 (Or.inr (Or.inr ((h.linked.mem_externals name).2
      ⟨hforeign, hedge⟩)))

/-- Edges lead from nodes to nodes. -/
theorem mem_nodeNames_of_mem_edges (h : PartialLinkage settings declarations links g) {e : Edge}
    (he : e ∈ g.edges) : e.source ∈ g.nodeNames ∧ e.target ∈ g.nodeNames := by
  rcases h.mem_edges.1 he with hown | ⟨other, hforeign, hextended, rfl⟩
  · obtain ⟨⟨d, k⟩, hk, hmem⟩ := List.mem_flatMap.1 hown
    have hd : d.name ∈ g.nodeNames :=
      h.mem_nodeNames_of_declared (List.mem_map_of_mem (h.mem_declarations hk))
    have hreads := h.reads _ hk
    rcases Links.mem_edges.1 hmem with ⟨target, hsuper, rfl⟩ | ⟨target, htarget, rfl⟩ |
      ⟨outer, houter, rfl⟩
    · refine ⟨hd, h.mem_nodeNames_of_inherited ⟨d.name, .asClass, hown⟩ ?_⟩
      have hmeans := hreads.superclass
      rw [hsuper] at hmeans
      exact hmeans.target_cases.2.imp_right (Or.imp_right And.right)
    · refine ⟨hd, h.mem_nodeNames_of_inherited ⟨d.name, .asInterface, hown⟩ ?_⟩
      obtain ⟨i, hi, rfl⟩ := List.getElem_of_mem htarget
      obtain ⟨_, -, -, hmeaning⟩ :=
        hreads.interfaces.get (hreads.interfaces.length_eq ▸ hi) hi
      exact (Resolver.meaning_cases hmeaning).imp_right (Or.imp_right And.right)
    · have hmeans := hreads.outer
      rw [houter] at hmeans
      exact ⟨h.mem_nodeNames_of_declared hmeans.mem_names, hd⟩
  · refine ⟨Graph.mem_nodeNames.2 (Or.inr (Or.inr ?_)), ?_⟩
    · exact (h.linked.mem_externals other).2 ⟨hforeign, hextended.inherited⟩
    · exact Graph.mem_nodeNames.2 (Or.inl h.linked.root.symm)

end PartialLinkage

/-! ## Names in hierarchies -/

namespace Hierarchy.Built

variable {settings : Resolver} {declarations : List Declaration}
  {links : List (Declaration × Links)} {h : Hierarchy} {name : TypeName}

theorem mem_nodes_of_node (hb : Built settings declarations links h) {n : Node}
    (hnode : h.node name = .ok n) : n ∈ h.graph.nodes := by
  unfold node at hnode
  cases hn : h.graph.node? name with
  | none =>
    rw [hn] at hnode
    exact nomatch hnode
  | some m =>
    rw [hn] at hnode
    obtain rfl := Except.ok.inj hnode
    exact hb.linkage.mem_nodes_of_node? hn

theorem exists_node (hb : Built settings declarations links h) (hname : h.contains name = true) :
    ∃ n ∈ h.graph.nodes, h.node name = .ok n ∧ h.canonical name = .ok n.name := by
  obtain ⟨n, hn⟩ := Option.isSome_iff_exists.1 hname
  have hnode : h.node name = .ok n := by
    unfold node
    rw [hn]
  refine ⟨n, hb.mem_nodes_of_node hnode, hnode, ?_⟩
  unfold canonical
  rw [hnode]
  rfl

theorem node_name (hb : Built settings declarations links h) {n : Node}
    (hn : n ∈ h.graph.nodes) : h.node n.name = .ok n := by
  unfold node
  rw [hb.linkage.node?_name hn]

theorem canonical_of_mem (hb : Built settings declarations links h)
    (hname : name ∈ h.graph.nodeNames) : h.canonical name = .ok name := by
  rw [← Graph.map_name_nodes] at hname
  obtain ⟨n, hn, rfl⟩ := List.mem_map.1 hname
  unfold canonical
  rw [hb.node_name hn]
  rfl

end Hierarchy.Built

end Lineage
