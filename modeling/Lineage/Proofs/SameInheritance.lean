import Lineage.Proofs.OwedMethods

/-!
# Graphs with the same inheritance

Two graphs with the same types and the same supertypes, which may differ in the methods of the types
and in what lies around them. The checks of inheritance find the same in both, and questions about
supertypes have the same answers. What a class owes depends on the methods of the types above it
alone, each of which has its counterpart in the other graph (`SameInheritance.owed_eq`).
-/

namespace Lineage

/-- Two graphs with the same edges between subtypes and supertypes. Each declared type has a
counterpart in the other graph, of the same name and kind. -/
structure SameInheritance (same : Declaration → Declaration → Prop) (g g' : Graph) : Prop where
  name_eq : ∀ d d', same d d' → d.name = d'.name
  kind_eq : ∀ d d', same d d' → d.kind = d'.kind
  root : g.root = g'.root
  aliases : g.aliases = g'.aliases
  declared : List.Forall₂ same g.declared g'.declared
  externals : g.externals = g'.externals
  edges : g.edges.filter (·.kind.isInheritance) = g'.edges.filter (·.kind.isInheritance)

/-- Two declarations of methods of the same signatures, abstract or not. -/
structure Declaration.SameMethods (d d' : Declaration) : Prop where
  name : d.name = d'.name
  abstracts : d.abstracts = d'.abstracts
  concretes : d.concretes = d'.concretes

/-! ## Lists with corresponding entries -/

theorem rel_find? {α β : Type} {same : α → β → Prop} {p : α → Bool} {q : β → Bool} {xs : List α}
    {ys : List β} (h : List.Forall₂ same xs ys) (hpq : ∀ x y, same x y → p x = q y) :
    Option.Rel same (xs.find? p) (ys.find? q) := by
  induction h with
  | nil => exact .none
  | @cons x y xs ys hxy _ ih =>
    rw [List.find?_cons, List.find?_cons, hpq x y hxy]
    cases q y with
    | true => exact .some hxy
    | false => exact ih

/-- Lists with corresponding entries are made into the same list where the entries are. -/
theorem flatMap_eq_of_forall₂ {α β γ : Type} {same : α → β → Prop} {f : α → List γ}
    {f' : β → List γ} {xs : List α} {ys : List β} (h : List.Forall₂ same xs ys)
    (hf : ∀ x y, same x y → f x = f' y) : xs.flatMap f = ys.flatMap f' := by
  have hrel := List.rel_flatMap (P := Eq) h fun _ _ hxy => List.forall₂_eq_eq_eq ▸ hf _ _ hxy
  rw [List.forall₂_eq_eq_eq] at hrel
  exact hrel

theorem exists_of_forall₂ {α β : Type} {same : α → β → Prop} {xs : List α} {ys : List β}
    (h : List.Forall₂ same xs ys) {y : β} (hy : y ∈ ys) : ∃ x ∈ xs, same x y := by
  induction h with
  | nil => exact absurd hy List.not_mem_nil
  | @cons x y' xs ys hxy _ ih =>
    rcases List.mem_cons.1 hy with rfl | hy
    · exact ⟨x, List.mem_cons_self, hxy⟩
    · obtain ⟨x', hx', hsame⟩ := ih hy
      exact ⟨x', List.mem_cons_of_mem _ hx', hsame⟩

/-- A correspondence of lists need only be weakened at the entries of the first. -/
theorem forall₂_imp_of_mem {α β : Type} {same same' : α → β → Prop} {xs : List α} {ys : List β}
    (h : List.Forall₂ same xs ys) (himp : ∀ x ∈ xs, ∀ y, same x y → same' x y) :
    List.Forall₂ same' xs ys :=
  ((List.forall₂_and_left xs ys).2 ⟨fun _ hx => hx, h⟩).imp
    fun x y hxy => himp x hxy.1 y hxy.2

namespace SameInheritance

variable {same : Declaration → Declaration → Prop} {g g' : Graph}
  (h : SameInheritance same g g')

include h

theorem symm : SameInheritance (flip same) g' g where
  name_eq _ _ hd := (h.name_eq _ _ hd).symm
  kind_eq _ _ hd := (h.kind_eq _ _ hd).symm
  root := h.root.symm
  aliases := h.aliases.symm
  declared := h.declared.flip
  externals := h.externals.symm
  edges := h.edges.symm

/-! ## Edges and walks -/

theorem filter_edges {p : Edge → Bool} (hp : ∀ e, p e = true → e.kind.isInheritance = true) :
    g.edges.filter p = g'.edges.filter p := by
  have hboth : ∀ es : List Edge, (es.filter (·.kind.isInheritance)).filter p = es.filter p := by
    intro es
    rw [List.filter_filter]
    refine List.filter_congr fun e _ => ?_
    cases he : p e with
    | false => rfl
    | true => exact hp e he
  rw [← hboth, h.edges, hboth]

theorem inheritance : g.inheritance = g'.inheritance := by
  unfold Graph.inheritance
  rw [h.edges]

section Kind

variable (kind : EdgeKind) (hkind : kind.isInheritance = true)

include hkind

theorem along : g.along kind = g'.along kind := by
  unfold Graph.along
  rw [h.filter_edges]
  intro e he
  exact of_decide_eq_true he ▸ hkind

theorem targets (name : TypeName) : g.targets name kind = g'.targets name kind := by
  unfold Graph.targets
  rw [h.along kind hkind]

theorem sources (name : TypeName) : g.sources name kind = g'.sources name kind := by
  unfold Graph.sources
  rw [h.filter_edges]
  intro e he
  rw [Bool.and_eq_true, decide_eq_true_eq] at he
  exact he.1 ▸ hkind

end Kind

theorem superclass? (name : TypeName) : g.superclass? name = g'.superclass? name := by
  rw [Graph.superclass?_eq_head?, Graph.superclass?_eq_head?, h.targets .extension rfl]

theorem ancestors (hacyclic : ¬ g.inheritance.Cyclic) (name : TypeName) :
    g.ancestors name = g'.ancestors name := by
  have hacyclic' : ¬ g'.inheritance.Cyclic := h.inheritance ▸ hacyclic
  induction name using (Graph.wellFounded_superclass? hacyclic).induction with
  | _ name ih =>
    rw [Graph.ancestors_eq hacyclic, Graph.ancestors_eq hacyclic', h.superclass?]
    cases hsuper : g'.superclass? name with
    | none => rfl
    | some super => exact congrArg (super :: ·) (ih super ((h.superclass? name).trans hsuper))

theorem interfacesOfAll (names : List TypeName) :
    g.interfacesOfAll names = g'.interfacesOfAll names := by
  unfold Graph.interfacesOfAll
  rw [h.along .implementation rfl]

/-! ## Types and checks -/

theorem isRootName (name : TypeName) : g.isRootName name = g'.isRootName name := by
  unfold Graph.isRootName
  rw [h.root, h.aliases]

theorem typeNames : g.typeNames = g'.typeNames :=
  List.forall₂_eq_eq_eq ▸ List.rel_map (fun _ _ hd => h.name_eq _ _ hd) h.declared

theorem rel_declared? (name : TypeName) :
    Option.Rel same (g.declared? name) (g'.declared? name) :=
  rel_find? h.declared fun d d' hd => by rw [h.name_eq d d' hd]

theorem fits (role : Role) (name : TypeName) : g.fits role name = g'.fits role name := by
  have hexternal : g.external? name = g'.external? name := by
    unfold Graph.external?
    rw [h.externals]
  unfold Graph.fits Graph.node?
  rw [h.isRootName, h.root, hexternal]
  split_ifs
  · rfl
  · have hrel := h.rel_declared? name
    generalize g.declared? name = o, g'.declared? name = o' at hrel ⊢
    cases hrel with
    | none => rfl
    | some hd => exact congrArg role.accepts (h.kind_eq _ _ hd)

theorem inheritanceCycle? : g.inheritanceCycle? = g'.inheritanceCycle? := by
  unfold Graph.inheritanceCycle?
  rw [h.inheritance, h.typeNames]

theorem kindMismatch? : g.kindMismatch? = g'.kindMismatch? := by
  unfold Graph.kindMismatch?
  simp only [List.findSome?_cons, List.findSome?_nil, h.typeNames, h.targets .extension rfl,
    h.targets .implementation rfl, h.fits]

theorem multipleInheritance? : g.multipleInheritance? = g'.multipleInheritance? := by
  have hnames : g.nodeNames = g'.nodeNames := by
    unfold Graph.nodeNames
    rw [h.root, h.externals,
      show g.declared.map (·.name) = g'.declared.map (·.name) from h.typeNames]
  unfold Graph.multipleInheritance?
  simp only [hnames, h.targets .extension rfl]

/-- With all edges the same, no check tells the graphs apart. -/
theorem fault? (hedges : g.edges = g'.edges) : g.fault? = g'.fault? := by
  have hnesting : g.nesting = g'.nesting := by
    unfold Graph.nesting
    rw [hedges]
  unfold Graph.fault? Graph.enclosingCycle?
  rw [h.inheritanceCycle?, h.multipleInheritance?, h.kindMismatch?, hnesting, h.typeNames]

/-! ## Methods owed -/

theorem forall₂_declaredUntil (names : List TypeName) :
    List.Forall₂ same (g.declaredUntil names) (g'.declaredUntil names) := by
  induction names with
  | nil => exact .nil
  | cons name names ih =>
    unfold Graph.declaredUntil
    have hrel := h.rel_declared? name
    generalize g.declared? name = o, g'.declared? name = o' at hrel ⊢
    cases hrel with
    | none => exact .nil
    | some hd => exact .cons hd ih

/-- The declared types above a class have counterparts above the counterpart of the class. -/
theorem forall₂_declaredChain (hacyclic : ¬ g.inheritance.Cyclic) {d d' : Declaration}
    (hd : same d d') : List.Forall₂ same (g.declaredChain d) (g'.declaredChain d') := by
  unfold Graph.declaredChain
  rw [h.ancestors hacyclic, h.name_eq d d' hd]
  exact .cons hd (h.forall₂_declaredUntil _)

theorem forall₂_filterMap_declared? (names : List TypeName) :
    List.Forall₂ same (names.filterMap g.declared?) (names.filterMap g'.declared?) := by
  refine List.rel_filterMap (R := Eq) ?_ (List.forall₂_eq_eq_eq ▸ rfl)
  rintro name _ rfl
  exact h.rel_declared? name

theorem interfaces_inherited (hacyclic : ¬ g.inheritance.Cyclic) {d d' : Declaration}
    (hd : same d d') : (g.inherited d).interfaces = (g'.inherited d').interfaces := by
  have hchain := h.forall₂_declaredChain hacyclic hd
  unfold Graph.inherited
  generalize g.declaredChain d = chain, g'.declaredChain d' = chain' at hchain ⊢
  induction hchain with
  | nil => rfl
  | @cons c c' chain chain' hc _ ih =>
    show (g.along .implementation).closure _ (g.targets c.name .implementation) =
      (g'.along .implementation).closure _ (g'.targets c'.name .implementation)
    rw [h.along .implementation rfl, h.targets .implementation rfl, h.name_eq c c' hc, ih]

theorem inherited_eq {d d' : Declaration}
    (hchain : List.Forall₂ Declaration.SameMethods (g.declaredChain d) (g'.declaredChain d')) :
    g.inherited d = g'.inherited d' := by
  unfold Graph.inherited
  generalize g.declaredChain d = chain, g'.declaredChain d' = chain' at hchain ⊢
  induction hchain with
  | nil => rfl
  | cons hc _ ih =>
    rw [List.foldr_cons, List.foldr_cons, ih]
    unfold Graph.inherit
    rw [h.along .implementation rfl, h.targets .implementation rfl, hc.name, hc.abstracts,
      hc.concretes]

/-- A class owes what its counterpart does if the types above it, the class and its interfaces
included, declare the same methods as theirs. -/
theorem owed_eq (hacyclic : ¬ g.inheritance.Cyclic) {d d' : Declaration} (hd : same d d')
    (hmethods : ∀ c c', same c c' → c.name ∈ d.name :: g.ancestors d.name ∨
      c.name ∈ (g.inherited d).interfaces → c.SameMethods c') :
    g.owed (g.inherited d) = g'.owed (g'.inherited d') := by
  have hchain : List.Forall₂ Declaration.SameMethods (g.declaredChain d)
      (g'.declaredChain d') :=
    forall₂_imp_of_mem (h.forall₂_declaredChain hacyclic hd) fun c hc c' hsame =>
      hmethods c c' hsame (Or.inl (Graph.mem_names_of_mem_declaredChain hc))
  have hinterfaces : List.Forall₂ Declaration.SameMethods
      ((g.inherited d).interfaces.filterMap g.declared?)
      ((g.inherited d).interfaces.filterMap g'.declared?) := by
    refine forall₂_imp_of_mem (h.forall₂_filterMap_declared? _) fun c hc c' hsame => ?_
    obtain ⟨name, hname, hdeclared⟩ := List.mem_filterMap.1 hc
    exact hmethods c c' hsame (Or.inr ((Graph.mem_of_declared? hdeclared).2 ▸ hname))
  rw [← h.inherited_eq hchain]
  unfold Graph.owed
  simp only []
  rw [flatMap_eq_of_forall₂ hinterfaces fun _ _ hc => hc.abstracts,
    flatMap_eq_of_forall₂ hinterfaces fun _ _ hc => hc.concretes]

end SameInheritance

/-! ## Answers -/

namespace SameInheritance

variable {same : Declaration → Declaration → Prop} {h h' : Hierarchy}
  (hs : SameInheritance same h.graph h'.graph)

include hs

theorem canonical_eq (name : TypeName) : h.canonical name = h'.canonical name := by
  have hcontains : h.contains name = h'.contains name := by
    unfold Hierarchy.contains
    rw [Bool.eq_iff_iff, Graph.node?_isSome_iff, Graph.node?_isSome_iff, hs.isRootName,
      hs.typeNames, hs.externals]
  rw [Hierarchy.canonical_eq, Hierarchy.canonical_eq, hcontains, hs.isRootName, hs.root]

theorem isSubtypeOf_eq (sub super : TypeName) :
    h.isSubtypeOf sub super = h'.isSubtypeOf sub super := by
  unfold Hierarchy.isSubtypeOf Hierarchy.supertypesOf
  rw [hs.canonical_eq, hs.canonical_eq, hs.inheritance]

theorem superclassOf_eq (name : TypeName) : h.superclassOf name = h'.superclassOf name := by
  unfold Hierarchy.superclassOf
  rw [hs.canonical_eq, funext hs.superclass?]

theorem ancestorsOf_eq (hacyclic : ¬ h.graph.inheritance.Cyclic) (name : TypeName) :
    h.ancestorsOf name = h'.ancestorsOf name := by
  unfold Hierarchy.ancestorsOf
  rw [hs.canonical_eq, funext (hs.ancestors hacyclic)]

theorem interfacesOf_eq (hacyclic : ¬ h.graph.inheritance.Cyclic) (name : TypeName) :
    h.interfacesOf name = h'.interfacesOf name := by
  unfold Hierarchy.interfacesOf
  simp only [hs.canonical_eq, hs.ancestors hacyclic, hs.interfacesOfAll]

theorem subtypesOf_eq (name : TypeName) : h.subtypesOf name = h'.subtypesOf name := by
  unfold Hierarchy.subtypesOf
  simp only [hs.canonical_eq, hs.sources .extension rfl,
    hs.sources .implementation rfl]

end SameInheritance

end Lineage
