import Lineage.Proofs.Linking

/-!
# Linking runs

A run of the linker reads the references of every declaration. Where all of them mean something, it
ends with the graph whose edges are these meanings, each declaration's in the order of its
references; else with the error of one that means nothing (`run_ends`).
-/

namespace Lineage

/-! ## Readings of a declaration -/

/-- The supertypes that a declaration names: the superclass of a class, and the interfaces. -/
def Declaration.supertypes (d : Declaration) : List TypeName :=
  (if d.kind.isClass then d.superclass.toList else []) ++ d.interfaces

theorem Declaration.mem_supertypes {d : Declaration} {reference : TypeName} :
    reference ∈ d.supertypes ↔
      d.kind.isClass = true ∧ d.superclass = some reference ∨ reference ∈ d.interfaces := by
  unfold supertypes
  rw [List.mem_append]
  split_ifs with hclass
  · rw [Option.mem_toList, and_iff_right hclass]
  · rw [or_iff_right List.not_mem_nil, or_iff_right fun h => hclass h.1]

/-- The types that the references of a declaration mean. -/
structure Links where
  superclass : Option TypeName
  interfaces : List TypeName
  outer : Option TypeName

/-- The edges that link a declaration of some name to the types that it means. -/
def Links.edges (k : Links) (name : TypeName) : List Edge :=
  k.superclass.toList.map (⟨name, .extension, ·⟩) ++
    k.interfaces.map (⟨name, .implementation, ·⟩) ++ k.outer.toList.map (⟨·, .enclosure, name⟩)

namespace Resolver

variable (settings : Resolver) (declarations : List Declaration)

/-- A supertype reference means a type. The bound on the scopes tried is set by the nodes of the
graph when the reference is linked: more than the declared types, and at most `limit`. -/
def Means (limit : Nat) (source reference target : TypeName) : Prop :=
  ∃ nodes, declarations.length < nodes ∧ nodes ≤ limit ∧
    settings.meaning declarations (nodes + 1) source reference = some target

/-- What the superclass of a declaration is: the one named, or else the root. -/
def SuperclassMeans (limit : Nat) (d : Declaration) (target : Option TypeName) : Prop :=
  if d.kind.isClass then
    match d.superclass with
    | none => target = some settings.rootType
    | some reference =>
      ∃ name, target = some name ∧ settings.Means declarations limit d.name reference name
  else target = none

/-- What the type around a declaration is: the one named, which must be declared, or else the one
that its name implies, if that is. -/
def OuterMeans (d : Declaration) (target : Option TypeName) : Prop :=
  match d.enclosingType with
  | some reference =>
    ∃ nodes, declarations.length < nodes ∧ ∃ outer,
      (Graph.unlinked settings declarations).lookupWithin (nodes + 1) d.name reference =
        some outer ∧ target = some outer.name
  | none =>
    target = ((TypeName.impliedOuter d.name).bind
      (Graph.unlinked settings declarations).declared?).map (·.name)

/-- The references of a declaration mean these types. -/
structure Reads (limit : Nat) (d : Declaration) (k : Links) : Prop where
  superclass : settings.SuperclassMeans declarations limit d k.superclass
  interfaces : List.Forall₂ (settings.Means declarations limit d.name) d.interfaces k.interfaces
  outer : settings.OuterMeans declarations d k.outer

/-- Some reference of a declaration means nothing, and this is its error. -/
def Fails (d : Declaration) (error : StructureError) : Prop :=
  ∃ reference nodes, error = .unresolved reference d.name ∧ declarations.length < nodes ∧
    (reference ∈ d.supertypes ∧ settings.meaning declarations (nodes + 1) d.name reference = none ∨
      d.enclosingType = some reference ∧
        (Graph.unlinked settings declarations).lookupWithin (nodes + 1) d.name reference = none)

variable {settings declarations} {limit limit' : Nat} {d : Declaration} {k : Links}

theorem Means.mono {source reference target : TypeName}
    (h : settings.Means declarations limit source reference target) (hle : limit ≤ limit') :
    settings.Means declarations limit' source reference target := by
  obtain ⟨nodes, hnodes, hlimit, hmeaning⟩ := h
  exact ⟨nodes, hnodes, hlimit.trans hle, hmeaning⟩

theorem SuperclassMeans.of_named {target : Option TypeName}
    (h : settings.SuperclassMeans declarations limit d target) (hclass : d.kind.isClass = true)
    {reference : TypeName} (hsuper : d.superclass = some reference) :
    ∃ name, target = some name ∧ settings.Means declarations limit d.name reference name := by
  unfold SuperclassMeans at h
  rw [if_pos hclass, hsuper] at h
  exact h

theorem SuperclassMeans.imp {declarations' : List Declaration} {target : Option TypeName}
    (h : settings.SuperclassMeans declarations limit d target)
    (himp : ∀ reference name, settings.Means declarations limit d.name reference name →
      settings.Means declarations' limit' d.name reference name) :
    settings.SuperclassMeans declarations' limit' d target := by
  unfold SuperclassMeans at h ⊢
  split_ifs at h ⊢
  · cases hsuper : d.superclass with
    | none =>
      rw [hsuper] at h
      exact h
    | some reference =>
      rw [hsuper] at h
      obtain ⟨name, heq, hmeans⟩ := h
      exact ⟨name, heq, himp reference name hmeans⟩
  · exact h

theorem SuperclassMeans.exists_of_isClass {target : Option TypeName}
    (h : settings.SuperclassMeans declarations limit d target) (hclass : d.kind.isClass = true) :
    ∃ name, target = some name := by
  cases hsuper : d.superclass with
  | none =>
    unfold SuperclassMeans at h
    rw [if_pos hclass, hsuper] at h
    exact ⟨_, h⟩
  | some reference =>
    obtain ⟨name, heq, -⟩ := h.of_named hclass hsuper
    exact ⟨name, heq⟩

theorem SuperclassMeans.eq_none_of_not_isClass {target : Option TypeName}
    (h : settings.SuperclassMeans declarations limit d target) (hclass : d.kind.isClass = false) :
    target = none := by
  unfold SuperclassMeans at h
  rw [hclass] at h
  exact h

theorem SuperclassMeans.target_cases {target : TypeName}
    (h : settings.SuperclassMeans declarations limit d (some target)) :
    d.kind.isClass = true ∧ (target ∈ declarations.map (·.name) ∨ target = settings.rootType ∨
      d.superclass = some target ∧ settings.Foreign declarations target) := by
  unfold SuperclassMeans at h
  by_cases hclass : d.kind.isClass = true
  · rw [if_pos hclass] at h
    refine ⟨hclass, ?_⟩
    cases hsuper : d.superclass with
    | none =>
      rw [hsuper] at h
      exact Or.inr (Or.inl (Option.some.inj h))
    | some reference =>
      rw [hsuper] at h
      obtain ⟨name, heq, _, -, -, hmeaning⟩ := h
      obtain rfl := Option.some.inj heq
      rcases meaning_cases hmeaning with hmem | hroot | ⟨rfl, hforeign⟩
      · exact Or.inl hmem
      · exact Or.inr (Or.inl hroot)
      · exact Or.inr (Or.inr ⟨rfl, hforeign⟩)
  · rw [if_neg hclass] at h
    exact nomatch h

theorem OuterMeans.mem_names {outer : TypeName}
    (h : settings.OuterMeans declarations d (some outer)) : outer ∈ declarations.map (·.name) := by
  unfold OuterMeans at h
  cases henclosing : d.enclosingType with
  | some reference =>
    rw [henclosing] at h
    obtain ⟨_, -, e, hlookup, heq⟩ := h
    rw [Option.some.inj heq]
    exact List.mem_map_of_mem (Graph.mem_of_lookupWithin hlookup)
  | none =>
    rw [henclosing] at h
    obtain ⟨e, he, rfl⟩ := Option.map_eq_some_iff.1 h.symm
    obtain ⟨_, -, hdeclared⟩ := Option.bind_eq_some_iff.1 he
    exact List.mem_map_of_mem (Graph.mem_of_declared? hdeclared).1

/-- What is read from a declaration stays so when the graph grows. -/
theorem Reads.mono (h : settings.Reads declarations limit d k) (hle : limit ≤ limit') :
    settings.Reads declarations limit' d k where
  superclass := h.superclass.imp fun _ _ hmeans => hmeans.mono hle
  interfaces := h.interfaces.imp fun _ _ hmeans => hmeans.mono hle
  outer := h.outer

theorem Reads.means_of_mem (h : settings.Reads declarations limit d k) {reference : TypeName}
    (hmem : reference ∈ d.supertypes) :
    ∃ target, settings.Means declarations limit d.name reference target := by
  rcases Declaration.mem_supertypes.1 hmem with ⟨hclass, hsuper⟩ | hmem
  · obtain ⟨target, -, hmeans⟩ := h.superclass.of_named hclass hsuper
    exact ⟨target, hmeans⟩
  · obtain ⟨i, hi, rfl⟩ := List.getElem_of_mem hmem
    exact ⟨_, h.interfaces.get hi (h.interfaces.length_eq ▸ hi)⟩

end Resolver

/-- The edges of declarations with what their references mean. -/
def ownEdges (links : List (Declaration × Links)) : List Edge :=
  links.flatMap fun p => p.2.edges p.1.name

namespace Linked

variable {settings : Resolver} {declarations : List Declaration} {own : List Edge}
  {l : Linking} {d : Declaration}

theorem lookup_eq {g : Graph} (h : Linked settings declarations own g)
    (source reference : TypeName) : g.lookup source reference =
      (Graph.unlinked settings declarations).lookupWithin (g.nodeCount + 1) source reference := by
  rw [Graph.lookup_eq_lookupWithin]
  exact Graph.lookupWithin_congr h.declared?_eq _ source reference

/-! ## One declaration -/

/-- A resolution agrees with the meaning of its reference, and finds an external type in the graph
exactly if it is there. -/
def Agrees (settings : Resolver) (declarations : List Declaration) (g : Graph)
    (reference : TypeName) (meaning : Option TypeName) : Resolution → Prop
  | .declared name => name ∈ declarations.map (·.name) ∧ meaning = some name
  | .root => meaning = some settings.rootType
  | .known entry => meaning = some reference ∧ settings.Foreign declarations reference ∧
      settings.admits reference = true ∧ g.external? reference = some entry
  | .configured | .tolerated => meaning = some reference ∧
      settings.Foreign declarations reference ∧ settings.admits reference = true ∧
      g.external? reference = none
  | .unresolved => meaning = none

theorem agrees_resolve {g : Graph} (h : Linked settings declarations own g)
    (source reference : TypeName) :
    Agrees settings declarations g reference
      (settings.meaning declarations (g.nodeCount + 1) source reference)
      (g.resolve settings source reference) := by
  unfold Graph.resolve Resolver.meaning
  rw [h.lookup_eq]
  cases hlookup : (Graph.unlinked settings declarations).lookupWithin (g.nodeCount + 1)
      source reference with
  | some d => exact ⟨List.mem_map_of_mem (Graph.mem_of_lookupWithin hlookup), rfl⟩
  | none =>
    cases hroot : settings.isRoot reference with
    | true => exact rfl
    | false =>
      have hforeign : settings.Foreign declarations reference :=
        ⟨Graph.not_mem_of_lookupWithin hlookup, hroot⟩
      simp only [Bool.false_eq_true, if_false]
      cases hext : g.external? reference with
      | some entry =>
        have hadmits : settings.admits reference = true := by
          obtain ⟨hentry, hname⟩ := Graph.mem_of_external? hext
          exact h.admitted reference (hname ▸ List.mem_map_of_mem hentry)
        rw [if_pos hadmits]
        exact ⟨rfl, hforeign, hadmits, hext⟩
      | none =>
        unfold Resolver.admits
        cases hexternal : settings.isExternal reference with
        | true => exact ⟨rfl, hforeign, by rw [Resolver.admits, hexternal, Bool.true_or], hext⟩
        | false =>
          cases hallow : settings.allowUnresolved with
          | true => exact ⟨rfl, hforeign, by rw [Resolver.admits, hallow, Bool.or_true], hext⟩
          | false => exact rfl

theorem not_foreign_root {g : Graph} (h : Linked settings declarations own g) :
    ¬ settings.Foreign declarations g.root := by
  intro hforeign
  have hroot := hforeign.2
  rw [h.root, Resolver.isRoot_rootType] at hroot
  exact Bool.noConfusion hroot

/-- A supertype reference is linked to what it means, or fails because it means nothing. -/
theorem supertype_ends (h : Linked settings declarations own l.graph) {source : TypeName}
    (hsource : source ∈ declarations.map (·.name)) (reference : TypeName) (role : Role) :
    Ends
      (fun f => f.error = .unresolved reference source ∧
        settings.meaning declarations (l.graph.nodeCount + 1) source reference = none)
      (fun r => settings.meaning declarations (l.graph.nodeCount + 1) source reference = some r.1 ∧
        Linked settings declarations (own ++ [⟨source, role.edgeKind, r.1⟩])
          (r.2.graph.join source role.edgeKind r.1))
      (l.supertype settings source reference role) := by
  have hagrees := h.agrees_resolve source reference
  unfold Linking.supertype
  cases hresolve : l.graph.resolve settings source reference with
  | declared name =>
    rw [hresolve] at hagrees
    simp only [hresolve]
    exact ⟨hagrees.2, h.join hsource fun _ hforeign => hforeign.1 hagrees.1⟩
  | root =>
    rw [hresolve] at hagrees
    simp only [hresolve]
    exact ⟨hagrees.trans (congrArg some h.root.symm),
      h.join hsource fun _ => h.not_foreign_root⟩
  | known entry =>
    rw [hresolve] at hagrees
    obtain ⟨hmeaning, hforeign, hadmits, hext⟩ := hagrees
    obtain ⟨-, hname⟩ := Graph.mem_of_external? hext
    have hconnect := h.connect role hsource hforeign hadmits
    rw [h.receive_of_foreign hforeign, hext] at hconnect
    simp only [hresolve, hname]
    exact ⟨hmeaning, hconnect⟩
  | configured | tolerated =>
    rw [hresolve] at hagrees
    obtain ⟨hmeaning, hforeign, hadmits, hext⟩ := hagrees
    have hconnect := h.connect role hsource hforeign hadmits
    rw [h.receive_of_foreign hforeign, hext] at hconnect
    simp only [hresolve]
    exact ⟨hmeaning, hconnect⟩
  | unresolved =>
    rw [hresolve] at hagrees
    simp only [hresolve]
    exact ⟨rfl, hagrees⟩

theorem fails_of_meaning (h : Linked settings declarations own l.graph) {reference : TypeName}
    (hmem : reference ∈ d.supertypes) {error : StructureError}
    (herror : error = .unresolved reference d.name ∧
      settings.meaning declarations (l.graph.nodeCount + 1) d.name reference = none) :
    settings.Fails declarations d error :=
  ⟨reference, l.graph.nodeCount, herror.1, h.lt_nodeCount, Or.inl ⟨hmem, herror.2⟩⟩

theorem superclass_ends (h : Linked settings declarations own l.graph) (hd : d ∈ declarations) :
    Ends (fun f => settings.Fails declarations d f.error)
      (fun l' => ∃ target, settings.SuperclassMeans declarations l.graph.nodeCount d target ∧
        Linked settings declarations
          (own ++ target.toList.map (⟨d.name, .extension, ·⟩)) l'.graph)
      (l.superclass settings d) := by
  have hsource : d.name ∈ declarations.map (·.name) := List.mem_map_of_mem hd
  unfold Linking.superclass Resolver.SuperclassMeans
  cases hkind : d.kind.isClass with
  | false =>
    refine ⟨none, rfl, ?_⟩
    rw [Option.toList_none, List.map_nil, List.append_nil]
    exact h
  | true =>
    rw [if_pos rfl]
    cases hsuper : d.superclass with
    | none =>
      refine ⟨some settings.rootType, rfl, ?_⟩
      rw [← h.root]
      exact h.join hsource fun _ => h.not_foreign_root
    | some reference =>
      have hmem : reference ∈ d.supertypes :=
        Declaration.mem_supertypes.2 (Or.inl ⟨hkind, hsuper⟩)
      refine ((h.supertype_ends hsource reference .asClass).weaken
        fun f hf => h.fails_of_meaning hmem hf).bind ?_
      rintro ⟨target, l'⟩ ⟨hmeaning, hlinked⟩
      exact ⟨some target, ⟨target, rfl, _, h.lt_nodeCount, le_rfl, hmeaning⟩, hlinked⟩

theorem interface_ends (h : Linked settings declarations own l.graph) (hd : d ∈ declarations)
    {reference : TypeName} (hmem : reference ∈ d.interfaces) :
    Ends (fun f => settings.Fails declarations d f.error)
      (fun l' => ∃ target,
        settings.Means declarations l.graph.nodeCount d.name reference target ∧
        Linked settings declarations (own ++ [⟨d.name, .implementation, target⟩]) l'.graph)
      (l.interface settings d reference) := by
  unfold Linking.interface
  refine ((h.supertype_ends (List.mem_map_of_mem hd) reference .asInterface).weaken
    fun f hf => h.fails_of_meaning (Declaration.mem_supertypes.2 (Or.inr hmem)) hf).bind ?_
  rintro ⟨target, l'⟩ ⟨hmeaning, hlinked⟩
  exact ⟨target, ⟨_, h.lt_nodeCount, le_rfl, hmeaning⟩, hlinked⟩

theorem interfaces_ends (h : Linked settings declarations own l.graph) (hd : d ∈ declarations)
    {references : List TypeName} (hsub : references ⊆ d.interfaces) :
    Ends (fun f => settings.Fails declarations d f.error)
      (fun l' => ∃ targets,
        List.Forall₂ (settings.Means declarations l'.graph.nodeCount d.name) references targets ∧
        Linked settings declarations
          (own ++ targets.map (⟨d.name, .implementation, ·⟩)) l'.graph)
      (references.foldlM (fun l reference => l.interface settings d reference) l) := by
  refine Ends.foldlM_nil (fun references (l' : Linking) =>
    ∃ targets,
      List.Forall₂ (settings.Means declarations l'.graph.nodeCount d.name) references targets ∧
      Linked settings declarations
        (own ++ targets.map (⟨d.name, .implementation, ·⟩)) l'.graph) ?_ ?_
  · rintro references reference hmem l' ⟨targets, hmeans, hlinked⟩
    refine (hlinked.interface_ends hd (hsub hmem)).mono ?_
    rintro l'' ⟨target, hmean, hlinked'⟩
    have hle := hlinked.nodeCount_le hlinked' (List.subset_append_left _ _)
    refine ⟨targets ++ [target], List.rel_append ?_ (.cons (hmean.mono hle) .nil), ?_⟩
    · exact hmeans.imp fun _ _ hold => hold.mono hle
    · rw [List.map_append, List.map_singleton, ← List.append_assoc]
      exact hlinked'
  · refine ⟨[], .nil, ?_⟩
    rw [List.map_nil, List.append_nil]
    exact h

theorem enclosing_ends (h : Linked settings declarations own l.graph) (hd : d ∈ declarations) :
    Ends (fun f => settings.Fails declarations d f.error)
      (fun l' => ∃ target, settings.OuterMeans declarations d target ∧
        Linked settings declarations
          (own ++ target.toList.map (⟨·, .enclosure, d.name⟩)) l'.graph)
      (l.enclosing d) := by
  have hname : d.name ∈ declarations.map (·.name) := List.mem_map_of_mem hd
  have hjoin : ∀ outer : Declaration, outer ∈ declarations →
      Linked settings declarations (own ++ [⟨outer.name, .enclosure, d.name⟩])
        (l.graph.join outer.name .enclosure d.name) := fun outer houter =>
    h.join (List.mem_map_of_mem houter) fun _ hforeign => hforeign.1 hname
  unfold Linking.enclosing Resolver.OuterMeans
  cases henclosing : d.enclosingType with
  | some reference =>
    simp only []
    rw [h.lookup_eq]
    cases hlookup : (Graph.unlinked settings declarations).lookupWithin (l.graph.nodeCount + 1)
        d.name reference with
    | none =>
      exact ⟨reference, l.graph.nodeCount, rfl, h.lt_nodeCount, Or.inr ⟨henclosing, hlookup⟩⟩
    | some outer =>
      exact ⟨some outer.name, ⟨_, h.lt_nodeCount, outer, hlookup, rfl⟩,
        hjoin outer (Graph.mem_of_lookupWithin hlookup)⟩
  | none =>
    simp only []
    rw [funext h.declared?_eq]
    cases himplied : (TypeName.impliedOuter d.name).bind
        (Graph.unlinked settings declarations).declared? with
    | none =>
      refine ⟨none, rfl, ?_⟩
      rw [Option.toList_none, List.map_nil, List.append_nil]
      exact h
    | some outer =>
      obtain ⟨name, -, houter⟩ := Option.bind_eq_some_iff.1 himplied
      exact ⟨some outer.name, rfl, hjoin outer (Graph.mem_of_declared? houter).1⟩

/-- A declaration is linked to what its references mean, or one of them means nothing. -/
theorem declaration_ends (h : Linked settings declarations own l.graph) (hd : d ∈ declarations) :
    Ends (fun f => settings.Fails declarations d f.error)
      (fun l' => ∃ k, settings.Reads declarations l'.graph.nodeCount d k ∧
        Linked settings declarations (own ++ k.edges d.name) l'.graph)
      (Linking.declaration settings l d) := by
  unfold Linking.declaration
  refine (h.superclass_ends hd).bind ?_
  rintro l₁ ⟨superclass, hsuper, h₁⟩
  refine (h₁.interfaces_ends hd (List.Subset.refl _)).bind ?_
  rintro l₂ ⟨interfaces, hinterfaces, h₂⟩
  refine (h₂.enclosing_ends hd).mono ?_
  rintro l₃ ⟨outer, houter, h₃⟩
  have hle : l₂.graph.nodeCount ≤ l₃.graph.nodeCount :=
    h₂.nodeCount_le h₃ (List.subset_append_left _ _)
  have hle' : l.graph.nodeCount ≤ l₃.graph.nodeCount :=
    (h.nodeCount_le h₁ (List.subset_append_left _ _)).trans
      ((h₁.nodeCount_le h₂ (List.subset_append_left _ _)).trans hle)
  refine ⟨⟨superclass, interfaces, outer⟩, ⟨?_, ?_, houter⟩, ?_⟩
  · exact hsuper.imp fun _ _ hmeans => hmeans.mono hle'
  · exact hinterfaces.imp fun _ _ hmeans => hmeans.mono hle
  · unfold Links.edges
    rw [← List.append_assoc, ← List.append_assoc]
    exact h₃

end Linked

/-! ## All declarations in turn -/

/-- Linking some of the declarations links each of them to what its references mean. -/
theorem foldlM_declaration_ends {settings : Resolver} {declarations todo : List Declaration}
    (htodo : ∀ d ∈ todo, d ∈ declarations) :
    Ends (fun f => ∃ d ∈ declarations, settings.Fails declarations d f.error)
      (fun l => ∃ links : List (Declaration × Links), links.map (·.1) = todo ∧
        (∀ p ∈ links, settings.Reads declarations l.graph.nodeCount p.1 p.2) ∧
        Linked settings declarations (ownEdges links) l.graph)
      (todo.foldlM (Linking.declaration settings) ⟨Graph.unlinked settings declarations, []⟩) := by
  refine Ends.foldlM_nil (fun done (l : Linking) =>
    ∃ links : List (Declaration × Links), links.map (·.1) = done ∧
      (∀ p ∈ links, settings.Reads declarations l.graph.nodeCount p.1 p.2) ∧
      Linked settings declarations (ownEdges links) l.graph) ?_ ?_
  · rintro done d hd l ⟨links, rfl, hreads, hlinked⟩
    refine ((hlinked.declaration_ends (htodo d hd)).weaken
      fun f hf => ⟨d, htodo d hd, hf⟩).mono ?_
    rintro l' ⟨k, hk, hlinked'⟩
    have hle := hlinked.nodeCount_le hlinked' (List.subset_append_left _ _)
    refine ⟨links ++ [(d, k)], List.map_append, fun p hp => ?_, ?_⟩
    · rcases List.mem_append.1 hp with hp | hp
      · exact (hreads p hp).mono hle
      · obtain rfl := List.mem_singleton.1 hp
        exact hk
    · unfold ownEdges
      rw [List.flatMap_append, List.flatMap_singleton]
      exact hlinked'
  · exact ⟨[], rfl, fun p hp => absurd hp List.not_mem_nil, Linked.unlinked settings declarations⟩

/-- How a run ends: with all references linked, or with the first of them that means nothing, or
before that with a name that is declared twice. -/
theorem run_ends (settings : Resolver) (declarations : List Declaration) :
    Ends
      (fun f => ¬ settings.WellNamed declarations ∧ (∃ name, f.error = .duplicate name) ∨
        settings.WellNamed declarations ∧
          ∃ d ∈ declarations, settings.Fails declarations d f.error)
      (fun l => settings.WellNamed declarations ∧
        ∃ links : List (Declaration × Links), links.map (·.1) = declarations ∧
          (∀ p ∈ links, settings.Reads declarations l.graph.nodeCount p.1 p.2) ∧
          Linked settings declarations (ownEdges links) l.graph)
      (Linking.run settings declarations) := by
  unfold Linking.run
  rcases Graph.ofDeclarations_spec settings declarations with ⟨hnamed, heq⟩ | ⟨hnot, name, heq⟩
  · rw [heq]
    refine ((foldlM_declaration_ends fun d hd => hd).weaken
      fun f hf => Or.inr ⟨hnamed, hf⟩).mono fun l hl => ⟨hnamed, hl⟩
  · rw [heq]
    exact Or.inl ⟨hnot, name, rfl⟩

end Lineage
