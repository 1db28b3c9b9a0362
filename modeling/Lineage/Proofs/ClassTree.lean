import Lineage.Proofs.Chains
import Lineage.Proofs.NodeNames

/-!
# The tree of classes

In a hierarchy, what stands as a superclass is a class, the root or an external type, and what
stands as an interface is an interface or an external type. So the superclass of a type in the tree
of classes is in the tree as well (`superclass?_of_inClassTree`), and the walk from each class ends
at the root, while it ends at once for an interface (`classTree_rooted`).
-/

namespace Lineage

namespace Node

theorem category_mem_classes_iff {d : Declaration} :
    (declared d).category ∈ [Category.concreteClass, .abstractClass] ↔ d.kind.isClass = true := by
  cases hk : d.kind <;> simp [category, hk, TypeKind.isClass]

theorem category_mem_interfaces_iff {d : Declaration} :
    (declared d).category ∈ [Category.interface, .root] ↔ d.kind.isClass = false := by
  cases hk : d.kind <;> simp [category, hk, TypeKind.isClass]

theorem fits_asClass_iff {n : Node} : n.fits .asClass = true ↔
    n.category ∈ [Category.concreteClass, .abstractClass, .external] ∨ n.category = .root := by
  cases n with
  | declared d => cases hk : d.kind <;> simp [fits, category, hk, Role.accepts, TypeKind.isClass]
  | root name => simp [fits, category]
  | external e => simp [fits, category]

theorem fits_asInterface_iff {n : Node} : n.fits .asInterface = true ↔
    n.category ∈ [Category.interface, .external] := by
  cases n with
  | declared d =>
    cases hk : d.kind <;> simp [fits, category, hk, Role.accepts, TypeKind.isInterface]
  | root name => simp [fits, category]
  | external e => simp [fits, category]

end Node

/-! ## Kinds of supertypes -/

/-- Where no kind is wrong, each supertype may stand where it is named. -/
theorem Graph.fits_of_kindMismatch? {g : Graph} (hnone : g.kindMismatch? = none) {name : TypeName}
    (hname : name ∈ g.typeNames) (role : Role) {target : TypeName}
    (htarget : target ∈ g.targets name role.edgeKind) : g.fits role target = true := by
  unfold kindMismatch? at hnone
  have hkinds := List.findSome?_eq_none_iff.1 hnone name hname
  have hrole := List.findSome?_eq_none_iff.1 hkinds (role.edgeKind, role)
    (by cases role <;> simp [Role.edgeKind])
  rw [Option.map_eq_none_iff, List.find?_eq_none] at hrole
  simpa using hrole target htarget

namespace Hierarchy.Built

variable {settings : Resolver} {declarations : List Declaration}
  {links : List (Declaration × Links)} {h : Hierarchy}

theorem kindMismatch?_eq_none (hb : Built settings declarations links h) :
    h.graph.kindMismatch? = none := by
  have hsound := hb.sound
  unfold Graph.fault? at hsound
  rw [Option.or_eq_none_iff, Option.or_eq_none_iff, Option.or_eq_none_iff] at hsound
  exact hsound.2.2.1

theorem exists_node_of_target (hb : Built settings declarations links h) {name : TypeName}
    (hname : name ∈ h.graph.typeNames) (role : Role) {target : TypeName}
    (htarget : target ∈ h.graph.targets name role.edgeKind) :
    ∃ n ∈ h.graph.nodes, n.name = target ∧ n.fits role = true := by
  have hnode : target ∈ h.graph.nodeNames :=
    (hb.linkage.mem_nodeNames_of_mem_edges (Graph.mem_targets.1 htarget)).2
  rw [← Graph.map_name_nodes] at hnode
  obtain ⟨n, hn, rfl⟩ := List.mem_map.1 hnode
  refine ⟨n, hn, rfl, ?_⟩
  have hfits := Graph.fits_of_kindMismatch? hb.kindMismatch?_eq_none hname role htarget
  unfold Graph.fits at hfits
  rw [hb.linkage.node?_name hn] at hfits
  exact hfits

/-- What is implemented, directly or not, is a node that may stand as an interface. -/
theorem exists_node_of_implements (hb : Built settings declarations links h)
    {name i : TypeName} (himpl : h.graph.Implements name i) :
    ∃ n ∈ h.graph.nodes, n.name = i ∧ n.fits .asInterface = true := by
  obtain ⟨last, -, hlast⟩ := Relation.TransGen.tail'_iff.1 himpl
  have htarget : i ∈ h.graph.targets last .implementation := Digraph.mem_successors.2 hlast
  have hdeclared : last ∈ h.graph.typeNames := by
    by_contra hnot
    rw [hb.linkage.linked.typeNames_eq] at hnot
    rw [hb.linkage.targets_implementation_of_not_declared hnot] at htarget
    exact List.not_mem_nil htarget
  exact hb.exists_node_of_target hdeclared .asInterface htarget

end Hierarchy.Built

/-! ## Walks to the root -/

/-- The tree of classes: the root, the declared classes, and the external types under the root. -/
inductive Graph.InClassTree (g : Graph) : Node → Prop
  | root : g.InClassTree (.root g.root)
  | declared {d : Declaration} (hd : d ∈ g.declared) (hclass : d.kind.isClass = true) :
      g.InClassTree (.declared d)
  | external {e : External} (he : e ∈ g.externals) (hsuper : g.superclass? e.name = some g.root) :
      g.InClassTree (.external e)

namespace Graph.InClassTree

variable {g : Graph} {n : Node}

theorem mem_nodes (h : g.InClassTree n) : n ∈ g.nodes := by
  rw [Graph.mem_nodes]
  cases h with
  | root => exact Or.inl rfl
  | declared hd => exact Or.inr (Or.inl ⟨_, hd, rfl⟩)
  | external he => exact Or.inr (Or.inr ⟨_, he, rfl⟩)

theorem fits (h : g.InClassTree n) : n.fits .asClass = true := by
  cases h with
  | root => rfl
  | declared _ hclass => exact hclass
  | external => rfl

theorem eq_root (h : g.InClassTree n) (hroot : n.category = .root) : n = .root g.root := by
  cases h with
  | root => rfl
  | @declared d => cases hk : d.kind <;> simp [Node.category, hk] at hroot
  | external => exact nomatch hroot

end Graph.InClassTree

namespace Linkage

variable {settings : Resolver} {declarations : List Declaration}
  {links : List (Declaration × Links)} {g : Graph} {name : TypeName}

theorem superclass?_root (h : Linkage settings declarations links g) :
    g.superclass? g.root = none := by
  rw [Graph.superclass?_eq_head?, h.targets_root .extension rfl]
  rfl

theorem superclass?_of_foreign (h : Linkage settings declarations links g)
    (hname : settings.Foreign declarations name) :
    (g.superclass? name = some g.root ∧ Extended (ownEdges links) name) ∨
      (g.superclass? name = none ∧ ¬ Extended (ownEdges links) name) := by
  have hiff := h.linked.superclass?_eq_none_iff hname
  rw [Graph.superclass?_eq_head?] at hiff ⊢
  rcases h.targets_extension_of_not_declared hname.1 with heq | ⟨-, hextended, heq⟩
  · rw [heq] at hiff ⊢
    exact Or.inr ⟨rfl, hiff.1 rfl⟩
  · rw [heq]
    exact Or.inl ⟨rfl, hextended⟩

theorem superclass?_eq_root_iff (h : Linkage settings declarations links g)
    (hname : settings.Foreign declarations name) :
    g.superclass? name = some g.root ↔ Extended (ownEdges links) name := by
  rcases h.superclass?_of_foreign hname with ⟨hroot, hextended⟩ | ⟨hnone, hnot⟩
  · exact iff_of_true hroot hextended
  · exact iff_of_false (fun hroot => nomatch hnone.symm.trans hroot) hnot

theorem exists_superclass? (h : Linkage settings declarations links g) {d : Declaration}
    (hd : d ∈ declarations) (hclass : d.kind.isClass = true) :
    ∃ super, g.superclass? d.name = some super := by
  obtain ⟨k, hk⟩ := h.exists_links hd
  rw [h.superclass?_eq hk]
  exact (h.reads _ hk).superclass.exists_of_isClass hclass

theorem superclass?_of_not_isClass (h : Linkage settings declarations links g) {d : Declaration}
    (hd : d ∈ declarations) (hclass : d.kind.isClass = false) :
    g.superclass? d.name = none := by
  obtain ⟨k, hk⟩ := h.exists_links hd
  rw [h.superclass?_eq hk]
  exact (h.reads _ hk).superclass.eq_none_of_not_isClass hclass

end Linkage

namespace Hierarchy.Built

variable {settings : Resolver} {declarations : List Declaration}
  {links : List (Declaration × Links)} {h : Hierarchy} {n : Node}

theorem superclass?_of_inClassTree (hb : Built settings declarations links h)
    (hn : h.graph.InClassTree n) :
    (n = .root h.graph.root ∧ h.graph.superclass? n.name = none) ∨
      ∃ m, h.graph.superclass? n.name = some m.name ∧ h.graph.InClassTree m := by
  cases hn with
  | root => exact Or.inl ⟨rfl, hb.linkage.superclass?_root⟩
  | external _ hsuper => exact Or.inr ⟨.root h.graph.root, hsuper, .root⟩
  | @declared d hd hclass =>
    right
    have hmem : d ∈ declarations := hb.linkage.linked.declared ▸ hd
    obtain ⟨super, hsuper⟩ := hb.linkage.exists_superclass? hmem hclass
    have htarget := hb.linkage.superclass?_eq_some_iff.1 hsuper
    obtain ⟨m, hm, rfl, hfits⟩ :=
      hb.exists_node_of_target (List.mem_map_of_mem hd) .asClass htarget
    refine ⟨m, hsuper, ?_⟩
    rcases Graph.mem_nodes.1 hm with rfl | ⟨c, hc, rfl⟩ | ⟨e, he, rfl⟩
    · exact .root
    · exact .declared hc hfits
    · refine .external he ?_
      have hforeign := hb.linkage.foreign_of_external (List.mem_map_of_mem he)
      rw [hb.linkage.superclass?_eq_root_iff hforeign, hb.linkage.extended_iff]
      obtain ⟨k, hk⟩ := hb.linkage.exists_links hmem
      rw [hb.linkage.superclass?_eq hk] at hsuper
      exact ⟨_, hk, hclass, hsuper⟩

/-- The walk upwards from a type in the tree stays in the tree and ends at the root. -/
theorem ancestors_of_inClassTree (hb : Built settings declarations links h)
    (hn : h.graph.InClassTree n) :
    ∃ below : List Node,
      n.name :: h.graph.ancestors n.name = below.map (·.name) ++ [h.graph.root] ∧
        ∀ m ∈ below, h.graph.InClassTree m := by
  -- each step of the walk keeps to the tree, and only the root has no step left
  induction habove : h.graph.ancestors n.name generalizing n with
  | nil =>
    rcases hb.superclass?_of_inClassTree hn with ⟨rfl, -⟩ | ⟨m, hsuper, -⟩
    · exact ⟨[], rfl, fun m hm => absurd hm List.not_mem_nil⟩
    · rw [Graph.ancestors_eq hb.acyclic_inheritance, hsuper] at habove
      exact nomatch habove
  | cons super above ih =>
    rw [Graph.ancestors_eq hb.acyclic_inheritance] at habove
    rcases hb.superclass?_of_inClassTree hn with ⟨-, hnone⟩ | ⟨m, hsuper, hm⟩
    · rw [hnone] at habove
      exact nomatch habove
    · rw [hsuper] at habove
      obtain ⟨rfl, hrest⟩ := List.cons.inj habove
      obtain ⟨below, heq, hall⟩ := ih hm hrest
      refine ⟨n :: below, ?_, List.forall_mem_cons.2 ⟨hn, hall⟩⟩
      rw [List.map_cons, List.cons_append, ← heq]

theorem ancestors_of_isClass (hb : Built settings declarations links h) {d : Declaration}
    (hd : d ∈ declarations) (hclass : d.kind.isClass = true) :
    ∃ below : List Node, h.graph.ancestors d.name = below.map (·.name) ++ [h.graph.root] ∧
      ∀ m ∈ below, h.graph.InClassTree m := by
  have htree : h.graph.InClassTree (.declared d) :=
    .declared (hb.linkage.linked.declared ▸ hd) hclass
  obtain ⟨nodes, heq, hall⟩ := hb.ancestors_of_inClassTree htree
  cases nodes with
  | nil =>
    -- a class is not the root
    have hroot : d.name = h.graph.root := (List.cons.inj heq).1
    exact absurd (hroot ▸ List.mem_map_of_mem hd) hb.linkage.root_not_mem
  | cons n below =>
    exact ⟨below, (List.cons.inj heq).2, fun m hm => hall m (List.mem_cons_of_mem _ hm)⟩

theorem ancestors_eq_nil (hb : Built settings declarations links h) {name : TypeName}
    (hnone : h.graph.superclass? name = none) : h.graph.ancestors name = [] := by
  rw [Graph.ancestors_eq hb.acyclic_inheritance, hnone]

theorem ancestors_of_foreign (hb : Built settings declarations links h) {name : TypeName}
    (hname : settings.Foreign declarations name) :
    h.graph.ancestors name = [] ∨ h.graph.ancestors name = [h.graph.root] := by
  rcases hb.linkage.superclass?_of_foreign hname with ⟨hsuper, -⟩ | ⟨hnone, -⟩
  · right
    rw [Graph.ancestors_eq hb.acyclic_inheritance, hsuper]
    exact congrArg (_ :: ·) (hb.ancestors_eq_nil hb.linkage.superclass?_root)
  · exact Or.inl (hb.ancestors_eq_nil hnone)

/-! ## Queries -/

theorem superclassOf_of_mem (hb : Built settings declarations links h) {name : TypeName}
    (hname : name ∈ h.graph.nodeNames) : h.superclassOf name = .ok (h.graph.superclass? name) :=
  superclassOf_of_canonical (hb.canonical_of_mem hname)

theorem mem_nodeNames_of_superclass? (hb : Built settings declarations links h)
    {name super : TypeName} (hsuper : h.graph.superclass? name = some super) :
    name ∈ h.graph.nodeNames ∧ super ∈ h.graph.nodeNames :=
  hb.linkage.mem_nodeNames_of_mem_edges
    (Graph.mem_targets.1 (hb.linkage.superclass?_eq_some_iff.1 hsuper))

theorem superclassOf_eq_some_iff (hb : Built settings declarations links h)
    {name super : TypeName} :
    h.superclassOf name = .ok (some super) ↔ h.graph.superclass? name = some super := by
  constructor
  · intro hsuper
    unfold superclassOf at hsuper
    rw [canonical_eq] at hsuper
    split_ifs at hsuper with hcontains hroot
    · have hnone := hb.linkage.superclass?_root
      rw [Except.ok.inj hsuper] at hnone
      exact nomatch hnone
    · exact Except.ok.inj hsuper
    · exact nomatch hsuper
  · intro hsuper
    rw [hb.superclassOf_of_mem (hb.mem_nodeNames_of_superclass? hsuper).1, hsuper]

theorem mem_nodeNames_of_mem_ancestors (hb : Built settings declarations links h)
    {name a : TypeName} (hname : name ∈ h.graph.nodeNames)
    (ha : a ∈ name :: h.graph.ancestors name) : a ∈ h.graph.nodeNames := by
  rw [Graph.mem_ancestors_iff hb.acyclic_inheritance] at ha
  rcases Relation.ReflTransGen.cases_tail ha with heq | ⟨b, -, hsuper⟩
  · exact heq ▸ hname
  · exact (hb.mem_nodeNames_of_superclass? hsuper).2

end Hierarchy.Built

/-- The place of a type in a hierarchy: the classes above it lead to the root or to nothing. -/
structure Hierarchy.Place (h : Hierarchy) (node : Node) (above interfaces : List TypeName) :
    Prop where
  nodup : (node.name :: above).Nodup
  chain : (node.name :: above).IsChain fun a b => h.superclassOf a = .ok (some b)
  ends : ∃ last, (node.name :: above).getLast? = some last ∧ h.superclassOf last = .ok none
  ofClass : node.category ∈ [Category.concreteClass, .abstractClass] →
    ∃ below, above = below ++ [h.rootName] ∧ h.rootName ∉ below ∧
      ∀ a ∈ below, ∃ m, h.node a = .ok m ∧
        m.category ∈ [Category.concreteClass, .abstractClass, .external]
  ofInterface : node.category ∈ [Category.interface, .root] → above = []
  ofExternal : node.category = .external → above = [] ∨ above = [h.rootName]
  interfaces_fit : ∀ i ∈ interfaces, ∃ m, h.node i = .ok m ∧
    m.category ∈ [Category.interface, .external]

namespace Hierarchy.Built

variable {settings : Resolver} {declarations : List Declaration}
  {links : List (Declaration × Links)} {h : Hierarchy} {n : Node}

/-- Only the last class above a class is the root. -/
theorem place_of_isClass (hb : Built settings declarations links h) {d : Declaration}
    (hd : d ∈ declarations) (hclass : d.kind.isClass = true) :
    ∃ below, h.graph.ancestors d.name = below ++ [h.rootName] ∧ h.rootName ∉ below ∧
      ∀ a ∈ below, ∃ m, h.node a = .ok m ∧
        m.category ∈ [Category.concreteClass, .abstractClass, .external] := by
  obtain ⟨below, heq, hall⟩ := hb.ancestors_of_isClass hd hclass
  have hnodup := (List.nodup_cons.1 (Graph.nodup_ancestors hb.acyclic_inheritance d.name)).2
  have hroot : h.rootName ∉ below.map (·.name) := by
    rw [heq, List.nodup_append'] at hnodup
    exact fun hin => hnodup.2.2 hin List.mem_cons_self
  refine ⟨below.map (·.name), heq, hroot, fun a ha => ?_⟩
  obtain ⟨m, hm, rfl⟩ := List.mem_map.1 ha
  refine ⟨m, hb.node_name (hall m hm).mem_nodes, ?_⟩
  rcases Node.fits_asClass_iff.1 (hall m hm).fits with hcategory | hcategory
  · exact hcategory
  · rw [(hall m hm).eq_root hcategory] at ha
    exact absurd ha hroot

theorem place (hb : Built settings declarations links h) (hn : n ∈ h.graph.nodes) :
    h.Place n (h.graph.ancestors n.name)
      (h.graph.interfacesOfAll (n.name :: h.graph.ancestors n.name)) where
  nodup := Graph.nodup_ancestors hb.acyclic_inheritance n.name
  chain := (isChain_follow _ n.name).imp fun _ _ => hb.superclassOf_eq_some_iff.2
  ends := by
    obtain ⟨last, hlast, hnone⟩ :=
      exists_last_of_walk (Graph.ancestors_eq hb.acyclic_inheritance) n.name
    have hname : n.name ∈ h.graph.nodeNames := Graph.map_name_nodes h.graph ▸ List.mem_map_of_mem hn
    have hmem := hb.mem_nodeNames_of_mem_ancestors hname (List.mem_of_getLast? hlast)
    exact ⟨last, hlast, (hb.superclassOf_of_mem hmem).trans (congrArg _ hnone)⟩
  ofClass := by
    intro hcategory
    rcases Graph.mem_nodes.1 hn with rfl | ⟨d, hd, rfl⟩ | ⟨e, he, rfl⟩
    · exact absurd hcategory (by simp [Node.category])
    · have hclass := Node.category_mem_classes_iff.1 hcategory
      exact hb.place_of_isClass (hb.linkage.linked.declared ▸ hd) hclass
    · exact absurd hcategory (by simp [Node.category])
  ofInterface := by
    intro hcategory
    refine hb.ancestors_eq_nil ?_
    rcases Graph.mem_nodes.1 hn with rfl | ⟨d, hd, rfl⟩ | ⟨e, he, rfl⟩
    · exact hb.linkage.superclass?_root
    · have hclass := Node.category_mem_interfaces_iff.1 hcategory
      exact hb.linkage.superclass?_of_not_isClass (hb.linkage.linked.declared ▸ hd) hclass
    · exact absurd hcategory (by simp [Node.category])
  ofExternal := by
    intro hcategory
    rcases Graph.mem_nodes.1 hn with rfl | ⟨d, hd, rfl⟩ | ⟨e, he, rfl⟩
    · exact nomatch hcategory
    · cases hk : d.kind <;> simp [Node.category, hk] at hcategory
    · exact hb.ancestors_of_foreign (hb.linkage.foreign_of_external (List.mem_map_of_mem he))
  interfaces_fit := by
    intro i hi
    obtain ⟨_, -, himpl⟩ := Graph.mem_interfacesOfAll.1 hi
    obtain ⟨m, hm, rfl, hfits⟩ := hb.exists_node_of_implements himpl
    exact ⟨m, hb.node_name hm, Node.fits_asInterface_iff.1 hfits⟩

end Hierarchy.Built

/-- No type leads to superclasses without end, and every type has its place in the tree of
classes. -/
theorem classTree_rooted {settings : Resolver} {declarations : List Declaration} {h : Hierarchy}
    (hbuild : (Hierarchy.build settings declarations).value = .ok h) :
    (WellFounded fun super name => h.superclassOf name = .ok (some super)) ∧
      ∀ name, h.contains name = true → ∃ node above interfaces, h.node name = .ok node ∧
        h.ancestorsOf name = .ok above ∧ h.interfacesOf name = .ok interfaces ∧
        h.Place node above interfaces := by
  obtain ⟨links, hb⟩ := Hierarchy.built_of_build hbuild
  constructor
  · simp only [hb.superclassOf_eq_some_iff]
    exact Graph.wellFounded_superclass? hb.acyclic_inheritance
  · intro name hname
    obtain ⟨n, hn, hnode, hcanonical⟩ := hb.exists_node hname
    exact ⟨n, _, _, hnode, Hierarchy.ancestorsOf_of_canonical hcanonical,
      Hierarchy.interfacesOf_of_canonical hcanonical, hb.place hn⟩

/-- An interface over an external type, and a class that extends the same type later on. -/
def lateClass : List Declaration :=
  [{ name := "app.Task", kind := .interface, interfaces := ["Runnable"] },
    { name := "app.Job", kind := .abstractClass, superclass := some "Runnable",
      interfaces := ["Closeable"] }]

/-- The graph of these types, where the external type that is extended lies under the root. -/
def lateGraph : Graph where
  root := "Object"
  aliases := ["java.lang.Object"]
  declared := lateClass
  externals := [⟨"Runnable", .asInterface⟩, ⟨"Closeable", .asInterface⟩]
  edges :=
    [⟨"app.Task", .implementation, "Runnable"⟩, ⟨"Runnable", .extension, "Object"⟩,
      ⟨"app.Job", .extension, "Runnable"⟩, ⟨"app.Job", .implementation, "Closeable"⟩]

theorem build_lateClass :
    (Hierarchy.build {} lateClass).value = .ok ⟨lateGraph, lateGraph.ledger.obligations⟩ :=
  Hierarchy.value_build_of_run (show Linking.run {} lateClass = .ok ⟨lateGraph, _⟩ from rfl)
    (by decide +kernel)

theorem classTree_lateClass :
    ∃ h node, (Hierarchy.build {} lateClass).value = .ok h ∧ h.node "app.Job" = .ok node ∧
      h.Place node ["Runnable", "Object"] ["Closeable"] := by
  obtain ⟨-, hplace⟩ := classTree_rooted build_lateClass
  obtain ⟨node, above, interfaces, hnode, habove, hinterfaces, hall⟩ :=
    hplace "app.Job" (by decide)
  obtain rfl := Except.ok.inj (habove.symm.trans
    (show _ = Except.ok ["Runnable", "Object"] from rfl))
  obtain rfl := Except.ok.inj (hinterfaces.symm.trans
    (show _ = Except.ok ["Closeable"] by decide +kernel))
  exact ⟨_, node, build_lateClass, hnode, hall⟩

end Lineage
