import Lineage.Proofs.LinkInvariant

/-!
# Types around types

Member types lie inside other declared types, each directly inside one at most. Where types are
linked and the checks of inheritance find nothing, building fails exactly if some type lies around
itself, and the path in the error is such a cycle; otherwise the walk outwards from every type comes
to an end (`enclosingCycle_iff`).
-/

namespace Lineage

namespace Graph

variable {g : Graph}

/-- One type lies directly inside another. -/
def EnclosedBy (g : Graph) (inner outer : TypeName) : Prop :=
  ⟨outer, .enclosure, inner⟩ ∈ g.edges

theorem adj_nesting_eq (g : Graph) : g.nesting.Adj = g.EnclosedBy := by
  funext inner outer
  apply propext
  rw [← Digraph.mem_successors, successors_nesting_eq, List.mem_map]
  constructor
  · rintro ⟨⟨source, kind, target⟩, he, rfl⟩
    obtain ⟨hmem, heq⟩ := List.mem_filter.1 he
    obtain ⟨rfl, rfl⟩ := of_decide_eq_true heq
    exact hmem
  · intro hmem
    exact ⟨_, List.mem_filter.2 ⟨hmem, decide_eq_true ⟨rfl, rfl⟩⟩, rfl⟩

/-- The check for types around themselves comes last. -/
theorem fault?_eq_enclosingCycle? (hcycle : g.inheritanceCycle? = none)
    (hmultiple : g.multipleInheritance? = none) (hkind : g.kindMismatch? = none) :
    g.fault? = (g.nesting.findCycle g.typeNames).map .enclosingCycle := by
  unfold fault?
  rw [hcycle, hmultiple, hkind, Option.none_or, Option.none_or, Option.none_or]
  rfl

/-- What a walk outwards from a type meets: distinct declared types, each directly around the one
before it, up to one inside no other. -/
structure Surroundings (g : Graph) (name : TypeName) (chain : List TypeName) : Prop where
  nodup : (name :: chain).Nodup
  declared : ∀ a ∈ chain, a ∈ g.typeNames
  nested : (name :: chain).IsChain g.EnclosedBy
  outermost : ∃ last, (name :: chain).getLast? = some last ∧ ∀ outer, ¬ g.EnclosedBy last outer

end Graph

namespace Linkage

variable {settings : Resolver} {declarations : List Declaration}
  {links : List (Declaration × Links)} {g : Graph}

theorem enclosing?_eq_some_iff (h : Linkage settings declarations links g)
    {inner outer : TypeName} : g.enclosing? inner = some outer ↔ g.EnclosedBy inner outer := by
  rw [Graph.enclosing?_eq_head?, head?_eq_some_iff_mem (h.length_successors_nesting_le inner),
    Digraph.mem_successors, Graph.adj_nesting_eq]

theorem enclosing?_eq_none_iff (h : Linkage settings declarations links g) {name : TypeName} :
    g.enclosing? name = none ↔ ∀ outer, ¬ g.EnclosedBy name outer := by
  rw [Option.eq_none_iff_forall_ne_some]
  simp only [ne_eq, h.enclosing?_eq_some_iff]

theorem surroundings (h : Linkage settings declarations links g) (hacyclic : ¬ g.nesting.Cyclic)
    (name : TypeName) : g.Surroundings name (g.enclosingChain name) := by
  have hnodup := Graph.nodup_enclosingChain hacyclic name
  refine ⟨hnodup, fun a ha => ?_, ?_, ?_⟩
  · have hwalk := (mem_walk_iff (Graph.enclosingChain_eq hacyclic)).1 (List.mem_cons_of_mem name ha)
    rcases Relation.ReflTransGen.cases_tail hwalk with rfl | ⟨b, -, hlink⟩
    · exact absurd ha (List.nodup_cons.1 hnodup).1
    · exact (h.declared_of_enclosure (h.enclosing?_eq_some_iff.1 hlink) rfl).1
  · exact (isChain_follow g.edges.length name).imp fun _ _ => h.enclosing?_eq_some_iff.1
  · obtain ⟨last, hlast, hnone⟩ := exists_last_of_walk (Graph.enclosingChain_eq hacyclic) name
    exact ⟨last, hlast, h.enclosing?_eq_none_iff.1 hnone⟩

theorem wellFounded_enclosedBy (h : Linkage settings declarations links g)
    (hacyclic : ¬ g.nesting.Cyclic) : WellFounded fun outer inner => g.EnclosedBy inner outer := by
  simp only [← h.enclosing?_eq_some_iff]
  exact wellFounded_link (Graph.enclosingChain_eq hacyclic)

theorem enclosingChain_root (h : Linkage settings declarations links g)
    (hacyclic : ¬ g.nesting.Cyclic) : g.enclosingChain g.root = [] := by
  rw [Graph.enclosingChain_eq hacyclic, Graph.enclosing?_eq_head?,
    h.successors_nesting_of_not_declared h.root_not_mem]
  rfl

end Linkage

namespace Hierarchy.Built

variable {settings : Resolver} {declarations : List Declaration}
  {links : List (Declaration × Links)} {h : Hierarchy} {name : TypeName}

/-- Every known name has its surroundings, an alias of the root like the root itself. -/
theorem exists_surroundings (hb : Built settings declarations links h)
    (hname : h.contains name = true) :
    ∃ chain, h.enclosingChainOf name = .ok chain ∧ h.graph.Surroundings name chain := by
  have hacyclic := hb.acyclic_nesting
  unfold enclosingChainOf
  rw [hb.canonical_of_contains hname]
  refine ⟨_, rfl, ?_⟩
  split_ifs with hroot
  · -- no edge ends at a name of the root, since none of these is declared
    have hnot : ∀ outer, ¬ h.graph.EnclosedBy name outer := by
      intro outer henclosed
      have hdeclared := (hb.linkage.declared_of_enclosure henclosed rfl).2
      rw [← hb.linkage.linked.isRootName, hb.linkage.isRootName_of_declared hdeclared] at hroot
      exact nomatch hroot
    show h.graph.Surroundings name (h.graph.enclosingChain h.graph.root)
    rw [hb.linkage.enclosingChain_root hacyclic]
    exact ⟨List.nodup_singleton name, fun a ha => (nomatch ha), List.isChain_singleton name,
      name, rfl, hnot⟩
  · exact hb.linkage.surroundings hacyclic name

end Hierarchy.Built

/-- Let all references be linked and the checks of inheritance find nothing. Building fails with
types around themselves exactly if there are any, and then the path in the error is a cycle of
distinct declared types. Otherwise building succeeds, and no walk outwards goes on without end. -/
theorem enclosingCycle_iff {settings : Resolver} {declarations : List Declaration} {l : Linking}
    (hrun : Linking.run settings declarations = .ok l)
    (hcycle : l.graph.inheritanceCycle? = none) (hkind : l.graph.kindMismatch? = none) :
    ((∃ path, (Hierarchy.build settings declarations).value = .error (.enclosingCycle path)) ↔
      ∃ a, Relation.TransGen l.graph.EnclosedBy a a) ∧
    (∀ path, (Hierarchy.build settings declarations).value = .error (.enclosingCycle path) →
      path.Nodup ∧ (∀ a ∈ path, a ∈ declarations.map (·.name)) ∧
      path.IsChain l.graph.EnclosedBy ∧
      ∃ first last, path.head? = some first ∧ path.getLast? = some last ∧
        l.graph.EnclosedBy last first) ∧
    ((¬ ∃ a, Relation.TransGen l.graph.EnclosedBy a a) →
      ∃ h, (Hierarchy.build settings declarations).value = .ok h ∧ h.graph = l.graph ∧
      (WellFounded fun outer inner => l.graph.EnclosedBy inner outer) ∧
      ∀ name, h.contains name = true → ∃ chain, h.enclosingChainOf name = .ok chain ∧
        l.graph.Surroundings name chain) := by
  obtain ⟨links, hlinks⟩ := linkage_of_run hrun
  have hfault := Graph.fault?_eq_enclosingCycle? hcycle hlinks.multipleInheritance?_eq_none hkind
  have hvalue := Hierarchy.value_build settings declarations
  rw [hrun] at hvalue
  simp only [hfault] at hvalue
  have hsome : (l.graph.nesting.findCycle l.graph.typeNames).isSome ↔
      ∃ a, Relation.TransGen l.graph.EnclosedBy a a := by
    rw [← Graph.adj_nesting_eq]
    exact Digraph.isSome_findCycle_iff fun a ha => hlinks.mem_typeNames_of_nesting ha
  rw [← hsome, hvalue]
  cases hfind : l.graph.nesting.findCycle l.graph.typeNames with
  | some path =>
    refine ⟨iff_of_true ⟨path, rfl⟩ rfl, ?_, fun hnot => absurd rfl hnot⟩
    rintro _ ⟨⟩
    have hcircle := Digraph.isCycle_of_findCycle hfind
    obtain ⟨first, hfirst, last, hlast, hback⟩ := hcircle.closes
    rw [← Graph.adj_nesting_eq]
    refine ⟨hcircle.nodup, fun a ha => ?_, hcircle.chain, first, last, hfirst, hlast, hback⟩
    rw [← hlinks.linked.typeNames_eq]
    exact hlinks.mem_typeNames_of_nesting (hcircle.transGen ha)
  | none =>
    refine ⟨iff_of_false (fun ⟨_, h⟩ => nomatch h) Bool.false_ne_true,
      fun _ h => (nomatch h), fun _ => ?_⟩
    rw [hfind] at hfault hvalue
    obtain ⟨_, hb⟩ := Hierarchy.built_of_build hvalue
    exact ⟨_, rfl, rfl, hb.linkage.wellFounded_enclosedBy hb.acyclic_nesting,
      fun _ hname => hb.exists_surroundings hname⟩

/-- An outer type with a member type, whose name implies where it lies, and a third type that names
the outer one by its package. What lies around the outer type is left open. -/
def nestedTypes (around : Option TypeName) : List Declaration :=
  [{ name := "app.Side", kind := .interface, enclosingType := some "Outer" },
    { name := "app.Outer", kind := .concreteClass, enclosingType := around },
    { name := "app.Outer$Inner", kind := .concreteClass }]

/-- An outer type inside its own member is refused, and the third type is not to blame. With
nothing around the outer type, the walk from its member ends there. -/
theorem enclosingCycle_nestedTypes :
    (∃ l, Linking.run .closed (nestedTypes (some "Inner")) = .ok l ∧
      (∃ a, Relation.TransGen l.graph.EnclosedBy a a) ∧
      ∃ path, (Hierarchy.build .closed (nestedTypes (some "Inner"))).value =
        .error (.enclosingCycle path) ∧ path.IsChain l.graph.EnclosedBy ∧ "app.Side" ∉ path) ∧
    ∃ h chain, (Hierarchy.build .closed (nestedTypes none)).value = .ok h ∧
      h.enclosingChainOf "app.Outer$Inner" = .ok chain ∧
      h.graph.Surroundings "app.Outer$Inner" chain ∧ chain = ["app.Outer"] := by
  constructor
  · have hrun : Linking.run .closed (nestedTypes (some "Inner")) = .ok _ := rfl
    obtain ⟨hiff, hpath, -⟩ := enclosingCycle_iff hrun (by decide +kernel) (by decide +kernel)
    have hvalue : (Hierarchy.build .closed (nestedTypes (some "Inner"))).value =
        .error (.enclosingCycle ["app.Outer", "app.Outer$Inner"]) := by
      rw [Hierarchy.value_build, hrun]
      simp only []
      rw [show Graph.fault? _ = some (.enclosingCycle ["app.Outer", "app.Outer$Inner"]) by
        decide +kernel]
    exact ⟨_, hrun, hiff.1 ⟨_, hvalue⟩, _, hvalue, (hpath _ hvalue).2.2.1, by decide⟩
  · have hrun : Linking.run .closed (nestedTypes none) = .ok _ := rfl
    obtain ⟨hiff, -, hbuilt⟩ := enclosingCycle_iff hrun (by decide +kernel) (by decide +kernel)
    have hvalue := Hierarchy.value_build_of_run hrun (by decide +kernel)
    obtain ⟨h, hok, -, -, hnames⟩ := hbuilt fun hcircle => by
      obtain ⟨path, herror⟩ := hiff.2 hcircle
      exact nomatch hvalue.symm.trans herror
    obtain rfl := Except.ok.inj (hvalue.symm.trans hok)
    obtain ⟨chain, hchain, hall⟩ := hnames "app.Outer$Inner" (by decide)
    obtain rfl := Except.ok.inj (hchain.symm.trans (show _ = Except.ok ["app.Outer"] from rfl))
    exact ⟨_, _, hvalue, hchain, hall, rfl⟩

end Lineage
