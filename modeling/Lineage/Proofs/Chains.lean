import Lineage.Proofs.Faults

/-!
# Chains of types

In a graph without cycles, the walk from a type through its superclasses stops before the bound of
`Graph.ancestors` does, so that the ancestors of a type are its superclass and the ancestors of that
(`ancestors_eq`); so it is with the types around a type (`enclosingChain_eq`). The declared types
come first among the ancestors (`Linkage.ancestors_split`), and only these implement interfaces.
-/

namespace Lineage

namespace Graph

variable {g : Graph}

theorem adj_of_superclass? {a b : TypeName} (h : g.superclass? a = some b) :
    g.inheritance.Adj a b := by
  rw [adj_inheritance]
  rw [superclass?_eq_head?] at h
  exact Or.inl (List.mem_of_mem_head? h)

theorem adj_of_implementation {a b : TypeName} (h : (g.along .implementation).Adj a b) :
    g.inheritance.Adj a b := by
  rw [adj_inheritance]
  exact Or.inr (Digraph.mem_successors.2 h)

theorem adj_of_enclosing? {a b : TypeName} (h : g.enclosing? a = some b) : g.nesting.Adj a b := by
  rw [enclosing?_eq_head?] at h
  exact Digraph.mem_successors.1 (List.mem_of_mem_head? h)

/-- With the number of edges as its bound, a walk along edges without cycles stops by itself. -/
theorem follow_edges_eq {graph : Digraph TypeName} {link : TypeName → Option TypeName}
    (hadj : ∀ a b, link a = some b → graph.Adj a b) (hacyclic : ¬ graph.Cyclic)
    (hlength : graph.arrows.length ≤ g.edges.length) (name : TypeName) :
    follow link g.edges.length name =
      match link name with
      | none => []
      | some next => next :: follow link g.edges.length next := by
  have hnames : ∀ a, (link a).isSome → a ∈ graph.arrows.map (·.1) := by
    intro a ha
    obtain ⟨b, hb⟩ := Option.isSome_iff_exists.1 ha
    exact List.mem_map_of_mem (f := (·.1)) (hadj a b hb)
  have hcircle : ∀ a, ¬ Relation.TransGen (fun a b => link a = some b) a a := fun a ha =>
    hacyclic ⟨a, Relation.TransGen.mono hadj a a ha⟩
  have hbound : (graph.arrows.map (·.1)).length ≤ g.edges.length := by
    rw [List.length_map]
    exact hlength
  exact follow_stable hnames hcircle hbound (Nat.le_succ_of_le hbound) name

theorem ancestors_eq (hacyclic : ¬ g.inheritance.Cyclic) (name : TypeName) :
    g.ancestors name =
      match g.superclass? name with
      | none => []
      | some super => super :: g.ancestors super := by
  refine follow_edges_eq (fun _ _ => adj_of_superclass?) hacyclic ?_ name
  unfold inheritance
  rw [List.length_map]
  exact List.length_filter_le _ _

theorem enclosingChain_eq (hacyclic : ¬ g.nesting.Cyclic) (name : TypeName) :
    g.enclosingChain name =
      match g.enclosing? name with
      | none => []
      | some outer => outer :: g.enclosingChain outer := by
  refine follow_edges_eq (fun _ _ => adj_of_enclosing?) hacyclic ?_ name
  unfold nesting
  rw [List.length_map]
  exact List.length_filter_le _ _

theorem wellFounded_superclass? (hacyclic : ¬ g.inheritance.Cyclic) :
    WellFounded fun super name => g.superclass? name = some super :=
  wellFounded_link (ancestors_eq hacyclic)

theorem mem_ancestors_iff (hacyclic : ¬ g.inheritance.Cyclic) {name a : TypeName} :
    a ∈ name :: g.ancestors name ↔
      Relation.ReflTransGen (fun a b => g.superclass? a = some b) name a :=
  mem_walk_iff (ancestors_eq hacyclic)

theorem nodup_ancestors (hacyclic : ¬ g.inheritance.Cyclic) (name : TypeName) :
    (name :: g.ancestors name).Nodup :=
  Digraph.nodup_of_isChain (not_exists.1 hacyclic)
    ((isChain_follow g.edges.length name).imp fun _ _ => adj_of_superclass?)

theorem nodup_enclosingChain (hacyclic : ¬ g.nesting.Cyclic) (name : TypeName) :
    (name :: g.enclosingChain name).Nodup :=
  Digraph.nodup_of_isChain (not_exists.1 hacyclic)
    ((isChain_follow g.edges.length name).imp fun _ _ => adj_of_enclosing?)

/-! ## Interfaces -/

/-- One type leads to another over implementation edges alone. -/
def Implements (g : Graph) : TypeName → TypeName → Prop :=
  Relation.TransGen (g.along .implementation).Adj

theorem implements_iff {a b : TypeName} : g.Implements a b ↔
    ∃ c ∈ g.targets a .implementation, (g.along .implementation).Reaches c b := by
  unfold Implements targets Digraph.Reaches
  rw [Relation.TransGen.head'_iff]
  simp only [Digraph.mem_successors]

/-- A set of all that some types implement is left by no implementation edge. -/
theorem closed_of_implements {found names : List TypeName}
    (hfound : ∀ i, i ∈ found ↔ ∃ name ∈ names, g.Implements name i) :
    ∀ a ∈ found, ∀ b, (g.along .implementation).Adj a b → b ∈ found := by
  intro a ha b hab
  obtain ⟨name, hname, himpl⟩ := (hfound a).1 ha
  exact (hfound b).2 ⟨name, hname, himpl.tail hab⟩

/-- What one more type implements, added to what others do. -/
theorem mem_closure_implements {found names : List TypeName} {name : TypeName}
    (hfound : ∀ i, i ∈ found ↔ ∃ name ∈ names, g.Implements name i) (i : TypeName) :
    i ∈ (g.along .implementation).closure found (g.targets name .implementation) ↔
      (∃ name ∈ names, g.Implements name i) ∨ g.Implements name i := by
  rw [Digraph.mem_closure_iff (closed_of_implements hfound), hfound, implements_iff]

theorem mem_interfacesOfAll {names : List TypeName} {i : TypeName} :
    i ∈ g.interfacesOfAll names ↔ ∃ name ∈ names, g.Implements name i := by
  have hfold : ∀ (todo done found : List TypeName),
      (∀ i, i ∈ found ↔ ∃ name ∈ done, g.Implements name i) →
      ∀ i, i ∈ todo.foldl (fun found name =>
          (g.along .implementation).closure found (g.targets name .implementation)) found ↔
        ∃ name ∈ done ++ todo, g.Implements name i := by
    intro todo
    induction todo with
    | nil =>
      intro done found hfound i
      rw [List.append_nil]
      exact hfound i
    | cons name todo ih =>
      intro done found hfound
      rw [List.append_cons]
      refine ih (done ++ [name]) _ fun i => ?_
      rw [mem_closure_implements hfound]
      simp only [List.mem_append, List.mem_singleton, or_and_right, exists_or, exists_eq_left]
  exact hfold names [] [] (fun i => by simp) i

/-! ## Declared types of a chain -/

/-- The declarations of a list of types, up to the first type that nobody declares. -/
def declaredUntil (g : Graph) : List TypeName → List Declaration
  | [] => []
  | name :: names =>
    match g.declared? name with
    | none => []
    | some d => d :: g.declaredUntil names

/-- The declarations of a class and of the classes above it, nearest first, up to the first class
that nobody declares. -/
def declaredChain (g : Graph) (d : Declaration) : List Declaration :=
  d :: g.declaredUntil (g.ancestors d.name)

theorem mem_names_of_mem_declaredUntil {names : List TypeName} {c : Declaration}
    (hc : c ∈ g.declaredUntil names) : c.name ∈ names := by
  induction names with
  | nil => exact absurd hc List.not_mem_nil
  | cons name names ih =>
    rw [declaredUntil] at hc
    cases hname : g.declared? name with
    | none =>
      rw [hname] at hc
      exact absurd hc List.not_mem_nil
    | some d =>
      rw [hname] at hc
      rcases List.mem_cons.1 hc with rfl | hc
      · exact (mem_of_declared? hname).2 ▸ List.mem_cons_self
      · exact List.mem_cons_of_mem _ (ih hc)

theorem mem_names_of_mem_declaredChain {c d : Declaration} (hc : c ∈ g.declaredChain d) :
    c.name ∈ d.name :: g.ancestors d.name := by
  rcases List.mem_cons.1 hc with rfl | hc
  · exact List.mem_cons_self
  · exact List.mem_cons_of_mem _ (mem_names_of_mem_declaredUntil hc)

/-- The chain of a class goes on with that of its superclass, if somebody declares it. -/
theorem declaredChain_eq (hacyclic : ¬ g.inheritance.Cyclic) (d : Declaration) :
    g.declaredChain d =
      match (g.superclass? d.name).bind g.declared? with
      | none => [d]
      | some super => d :: g.declaredChain super := by
  unfold declaredChain
  rw [ancestors_eq hacyclic]
  cases g.superclass? d.name with
  | none => rfl
  | some super =>
    rw [Option.bind_some, declaredUntil]
    cases hsuper : g.declared? super with
    | none => rfl
    | some e =>
      simp only []
      rw [(mem_of_declared? hsuper).2]

end Graph

namespace Linkage

variable {settings : Resolver} {declarations : List Declaration}
  {links : List (Declaration × Links)} {g : Graph}

/-- A type that nobody declares has no ancestor but the root. -/
theorem eq_root_of_mem_follow (h : Linkage settings declarations links g) {bound : Nat}
    {name a : TypeName} (hname : name ∉ declarations.map (·.name))
    (ha : a ∈ follow g.superclass? bound name) : a = g.root := by
  induction bound generalizing name with
  | zero => exact absurd ha List.not_mem_nil
  | succ bound ih =>
    rw [follow_succ] at ha
    cases hnext : g.superclass? name with
    | none =>
      rw [hnext] at ha
      exact absurd ha List.not_mem_nil
    | some next =>
      rw [hnext] at ha
      obtain rfl := h.adj_of_not_declared hname (Graph.adj_of_superclass? hnext)
      rcases List.mem_cons.1 ha with heq | ha
      · exact heq
      · exact ih h.root_not_mem ha

/-- The ancestors of a type begin with declared types, and no other declared types follow. -/
theorem ancestors_split (h : Linkage settings declarations links g) (bound : Nat)
    (name : TypeName) :
    ∃ rest, follow g.superclass? bound name =
        (g.declaredUntil (follow g.superclass? bound name)).map (·.name) ++ rest ∧
      ∀ a ∈ rest, a ∉ declarations.map (·.name) := by
  induction bound generalizing name with
  | zero => exact ⟨[], rfl, fun a ha => absurd ha List.not_mem_nil⟩
  | succ bound ih =>
    rw [follow_succ]
    cases hsuper : g.superclass? name with
    | none => exact ⟨[], rfl, fun a ha => absurd ha List.not_mem_nil⟩
    | some super =>
      rw [Graph.declaredUntil]
      cases hdeclared : g.declared? super with
      | some d =>
        obtain ⟨rest, hrest, hnot⟩ := ih super
        refine ⟨rest, ?_, hnot⟩
        simp only [List.map_cons, List.cons_append, (Graph.mem_of_declared? hdeclared).2]
        exact congrArg (super :: ·) hrest
      | none =>
        have hnot := h.declared?_eq_none_iff.1 hdeclared
        refine ⟨super :: follow g.superclass? bound super, rfl, fun a ha => ?_⟩
        rcases List.mem_cons.1 ha with rfl | ha
        · exact hnot
        · rw [h.eq_root_of_mem_follow hnot ha]
          exact h.root_not_mem

theorem not_implements (h : Linkage settings declarations links g) {a : TypeName}
    (ha : a ∉ declarations.map (·.name)) (i : TypeName) : ¬ g.Implements a i := by
  rw [Graph.implements_iff, h.targets_implementation_of_not_declared ha]
  rintro ⟨c, hc, -⟩
  exact List.not_mem_nil hc

/-- The interfaces of a class and its ancestors are those of its declared chain. -/
theorem exists_implements_iff (h : Linkage settings declarations links g) (d : Declaration)
    (i : TypeName) :
    (∃ name ∈ d.name :: g.ancestors d.name, g.Implements name i) ↔
      ∃ c ∈ g.declaredChain d, g.Implements c.name i := by
  obtain ⟨rest, hrest, hnot⟩ := h.ancestors_split g.edges.length d.name
  have hsplit : d.name :: g.ancestors d.name = (g.declaredChain d).map (·.name) ++ rest :=
    congrArg (d.name :: ·) hrest
  rw [hsplit]
  constructor
  · rintro ⟨name, hname, himpl⟩
    rcases List.mem_append.1 hname with hname | hname
    · obtain ⟨c, hc, rfl⟩ := List.mem_map.1 hname
      exact ⟨c, hc, himpl⟩
    · exact absurd himpl (h.not_implements (hnot name hname) i)
  · rintro ⟨c, hc, himpl⟩
    exact ⟨c.name, List.mem_append_left _ (List.mem_map_of_mem hc), himpl⟩

end Linkage

end Lineage
