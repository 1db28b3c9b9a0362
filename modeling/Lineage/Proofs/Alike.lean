import Lineage.Proofs.OwedMethods
import Mathlib.Data.Finset.Dedup

/-!
# Graphs that are alike

Two graphs are alike if they differ only in the order of declarations, external types and edges, and
in the roles in which external types were first named. Such graphs give the same answers
(`Alike.agree`), and their checks fail with errors of the same kind (`Alike.map_key_fault?`).
-/

namespace Lineage

/-- Two graphs with the same types, joined in the same way. -/
structure Alike (g g' : Graph) : Prop where
  root : g.root = g'.root
  isRootName : ∀ name, g.isRootName name = g'.isRootName name
  declared : g.declared.Perm g'.declared
  declared? : ∀ name, g.declared? name = g'.declared? name
  externals : ∀ name, name ∈ g.externals.map (·.name) ↔ name ∈ g'.externals.map (·.name)
  edges : g.edges.Perm g'.edges
  implementation : ∀ name, g.targets name .implementation = g'.targets name .implementation
  superclass? : ∀ name, g.superclass? name = g'.superclass? name
  enclosing? : ∀ name, g.enclosing? name = g'.enclosing? name

namespace Alike

variable {g g' : Graph} (h : Alike g g')

include h

/-! ## Relations and walks -/

theorem mem_typeNames (name : TypeName) : name ∈ g.typeNames ↔ name ∈ g'.typeNames := by
  rw [← Graph.declared?_isSome_iff, ← Graph.declared?_isSome_iff, h.declared?]

theorem adj_inheritance : g.inheritance.Adj = g'.inheritance.Adj := by
  funext a b
  apply propext
  rw [Graph.adj_inheritance_iff, Graph.adj_inheritance_iff]
  unfold Graph.DirectSupertype
  simp only [h.edges.mem_iff]

theorem adj_nesting : g.nesting.Adj = g'.nesting.Adj := by
  funext a b
  apply propext
  unfold Digraph.Adj Graph.nesting
  simp only [List.mem_map, List.mem_filter, h.edges.mem_iff]

theorem ancestors (name : TypeName) : g.ancestors name = g'.ancestors name := by
  unfold Graph.ancestors
  rw [h.edges.length_eq, follow_congr h.superclass?]

theorem enclosingChain (name : TypeName) : g.enclosingChain name = g'.enclosingChain name := by
  unfold Graph.enclosingChain
  rw [h.edges.length_eq, follow_congr h.enclosing?]

theorem closure_implementation (seen queue : List TypeName) :
    (g.along .implementation).closure seen queue = (g'.along .implementation).closure seen queue :=
  Digraph.closure_congr h.implementation seen queue

theorem interfacesOfAll (names : List TypeName) :
    g.interfacesOfAll names = g'.interfacesOfAll names := by
  have hstep : ∀ (found : List TypeName) (name : TypeName),
      (g.along .implementation).closure found ((g.along .implementation).successors name) =
        (g'.along .implementation).closure found
          ((g'.along .implementation).successors name) := by
    intro found name
    rw [h.closure_implementation]
    exact congrArg _ (h.implementation name)
  unfold Graph.interfacesOfAll
  simp only [hstep]

theorem mem_closure_inheritance (name other : TypeName) :
    other ∈ g.inheritance.closure [] [name] ↔ other ∈ g'.inheritance.closure [] [name] := by
  rw [Digraph.mem_closure_nil, Digraph.mem_closure_nil]
  unfold Digraph.Reaches
  rw [h.adj_inheritance]

theorem sources (name : TypeName) (kind : EdgeKind) :
    (g.sources name kind).Perm (g'.sources name kind) :=
  (h.edges.filter _).map _

/-! ## Methods owed -/

theorem declaredUntil (names : List TypeName) :
    g.declaredUntil names = g'.declaredUntil names := by
  induction names with
  | nil => rfl
  | cons name names ih =>
    unfold Graph.declaredUntil
    rw [h.declared?, ih]

theorem inherited (d : Declaration) : g.inherited d = g'.inherited d := by
  have hinherit : g.inherit = g'.inherit := by
    funext e above
    unfold Graph.inherit
    rw [h.closure_implementation, h.implementation]
  unfold Graph.inherited Graph.declaredChain
  rw [hinherit, h.declaredUntil, h.ancestors]

theorem obligation : g.obligation = g'.obligation := by
  funext d
  unfold Graph.obligation Graph.owed
  rw [h.inherited, funext h.declared?]

/-! ## Checks -/

theorem fits (role : Role) (name : TypeName) : g.fits role name = g'.fits role name := by
  have hexternal : ∀ g : Graph, ((g.external? name).map Node.external).any (·.fits role) =
      decide (name ∈ g.externals.map (·.name)) := by
    intro g
    by_cases hname : name ∈ g.externals.map (·.name)
    · obtain ⟨e, he⟩ := Option.ne_none_iff_exists'.1
        (mt Linked.external?_eq_none_iff.1 (not_not_intro hname))
      rw [he, decide_eq_true hname]
      rfl
    · rw [Linked.external?_eq_none_iff.2 hname, decide_eq_false hname]
      rfl
  unfold Graph.fits Graph.node?
  rw [h.isRootName, h.root, h.declared?]
  split_ifs
  · rfl
  · cases g'.declared? name with
    | some d => rfl
    | none =>
      simp only [hexternal]
      exact decide_eq_decide.2 (h.externals name)

theorem kindMismatch?_isSome : g.kindMismatch?.isSome = g'.kindMismatch?.isSome := by
  have htargets : ∀ name kind target,
      target ∈ g.targets name kind ↔ target ∈ g'.targets name kind := by
    intro name kind target
    rw [Graph.targets_eq, Graph.targets_eq]
    exact ((h.edges.filter _).map _).mem_iff
  rw [Bool.eq_iff_iff]
  unfold Graph.kindMismatch?
  simp only [List.isSome_findSome?, List.any_eq_true, Option.isSome_map, List.find?_isSome,
    h.mem_typeNames, htargets, h.fits]

omit h in
theorem map_key_congr {o o' : Option StructureError} {word : String}
    (ho : ∀ e, o = some e → e.key = word) (ho' : ∀ e, o' = some e → e.key = word)
    (hsome : o.isSome = o'.isSome) : o.map (·.key) = o'.map (·.key) := by
  cases o with
  | none =>
    cases o' with
    | none => rfl
    | some e' => exact nomatch hsome
  | some e =>
    cases o' with
    | none => exact nomatch hsome
    | some e' => exact congrArg some ((ho e rfl).trans (ho' e' rfl).symm)

/-- The first faults of graphs that are alike are of the same kind. -/
theorem map_key_fault? {settings : Resolver} {declarations declarations' : List Declaration}
    {links links' : List (Declaration × Links)} (hg : Linkage settings declarations links g)
    (hg' : Linkage settings declarations' links' g') :
    g.fault?.map (·.key) = g'.fault?.map (·.key) := by
  have hinheritance : g.inheritanceCycle?.map (·.key) = g'.inheritanceCycle?.map (·.key) := by
    have hkey : ∀ (g : Graph) e, g.inheritanceCycle? = some e → e.key = "inheritance_cycle" := by
      intro g e he
      obtain ⟨path, -, rfl⟩ := Graph.inheritanceCycle?_eq_some_iff.1 he
      rfl
    refine map_key_congr (hkey g) (hkey g') ?_
    rw [Bool.eq_iff_iff, hg.inheritanceCycle?_isSome_iff, hg'.inheritanceCycle?_isSome_iff]
    unfold Digraph.Cyclic
    rw [h.adj_inheritance]
  have hkind : g.kindMismatch?.map (·.key) = g'.kindMismatch?.map (·.key) := by
    have hkey : ∀ (g : Graph) e, g.kindMismatch? = some e →
        e.key = "supertype_kind_mismatch" := by
      intro g e he
      obtain ⟨name, supertype, role, rfl⟩ := Graph.exists_of_kindMismatch? he
      rfl
    exact map_key_congr (hkey g) (hkey g') h.kindMismatch?_isSome
  have henclosing : g.enclosingCycle?.map (·.key) = g'.enclosingCycle?.map (·.key) := by
    have hkey : ∀ (g : Graph) e, g.enclosingCycle? = some e → e.key = "enclosing_cycle" := by
      intro g e he
      obtain ⟨path, rfl⟩ := Graph.exists_of_enclosingCycle? he
      rfl
    refine map_key_congr (hkey g) (hkey g') ?_
    rw [Bool.eq_iff_iff, hg.enclosingCycle?_isSome_iff, hg'.enclosingCycle?_isSome_iff]
    unfold Digraph.Cyclic
    rw [h.adj_nesting]
  unfold Graph.fault?
  rw [hg.multipleInheritance?_eq_none, hg'.multipleInheritance?_eq_none, Option.none_or,
    Option.none_or, Option.map_or, Option.map_or, Option.map_or, Option.map_or, hinheritance,
    hkind, henclosing]

end Alike

/-! ## Answers -/

/-- Two hierarchies give the same answers, those about subtypes in any order. -/
structure Hierarchy.Agree (h h' : Hierarchy) : Prop where
  contains : ∀ name, h.contains name = h'.contains name
  isSubtypeOf : ∀ sub super, h.isSubtypeOf sub super = h'.isSubtypeOf sub super
  superclassOf : ∀ name, h.superclassOf name = h'.superclassOf name
  ancestorsOf : ∀ name, h.ancestorsOf name = h'.ancestorsOf name
  interfacesOf : ∀ name, h.interfacesOf name = h'.interfacesOf name
  enclosingChainOf : ∀ name, h.enclosingChainOf name = h'.enclosingChainOf name
  owedBy : ∀ name, h.owedBy name = h'.owedBy name
  subtypesOf : ∀ name,
    (h.subtypesOf name).map List.toFinset = (h'.subtypesOf name).map List.toFinset
  incompleteClasses : h.incompleteClasses.toFinset = h'.incompleteClasses.toFinset

namespace Alike

open Hierarchy (Built)

variable {settings : Resolver} {declarations declarations' : List Declaration}
  {links links' : List (Declaration × Links)} {h h' : Hierarchy}

theorem contains_eq (ha : Alike h.graph h'.graph) (name : TypeName) :
    h.contains name = h'.contains name := by
  unfold Hierarchy.contains
  rw [Bool.eq_iff_iff, Graph.node?_isSome_iff, Graph.node?_isSome_iff, ha.isRootName,
    ha.mem_typeNames, ha.externals]

theorem canonical_eq (ha : Alike h.graph h'.graph) (name : TypeName) :
    h.canonical name = h'.canonical name := by
  rw [Hierarchy.canonical_eq, Hierarchy.canonical_eq, ha.contains_eq, ha.isRootName, ha.root]

theorem agree (hb : Built settings declarations links h)
    (hb' : Built settings declarations' links' h') (ha : Alike h.graph h'.graph) : h.Agree h' where
  contains := ha.contains_eq
  isSubtypeOf sub super := by
    unfold Hierarchy.isSubtypeOf Hierarchy.supertypesOf
    rw [ha.canonical_eq sub, ha.canonical_eq super]
    cases h'.canonical sub with
    | error e => rfl
    | ok type =>
      cases h'.canonical super with
      | error e => rfl
      | ok other =>
        refine congrArg Except.ok ?_
        rw [Bool.eq_iff_iff, List.contains_iff_mem, List.contains_iff_mem,
          ha.mem_closure_inheritance]
  superclassOf name := by
    unfold Hierarchy.superclassOf
    rw [ha.canonical_eq, funext ha.superclass?]
  ancestorsOf name := by
    unfold Hierarchy.ancestorsOf
    rw [ha.canonical_eq, funext ha.ancestors]
  interfacesOf name := by
    unfold Hierarchy.interfacesOf
    simp only [ha.canonical_eq, ha.ancestors, ha.interfacesOfAll]
  enclosingChainOf name := by
    unfold Hierarchy.enclosingChainOf
    rw [ha.canonical_eq, funext ha.enclosingChain]
  owedBy name := by
    have hlookup : ∀ type, h.obligations.lookup type = h'.obligations.lookup type := by
      intro type
      have howed : ∀ d, h.graph.owed (h.graph.inherited d) = h'.graph.owed (h'.graph.inherited d) :=
        fun d => congrArg Prod.snd (congrFun ha.obligation d)
      rw [hb.lookup_obligations, hb'.lookup_obligations, ha.declared?]
      simp only [howed]
    unfold Hierarchy.owedBy
    simp only [ha.canonical_eq, hlookup]
  subtypesOf name := by
    unfold Hierarchy.subtypesOf
    rw [ha.canonical_eq]
    cases h'.canonical name with
    | error e => rfl
    | ok type =>
      refine congrArg Except.ok (Finset.ext fun other => ?_)
      rw [List.mem_toFinset, List.mem_toFinset, List.mem_eraseDups, List.mem_eraseDups,
        List.mem_append, List.mem_append, (ha.sources type .extension).mem_iff,
        (ha.sources type .implementation).mem_iff]
  incompleteClasses := by
    have hperm : h.obligations.Perm h'.obligations := by
      rw [hb.obligations_eq, hb'.obligations_eq, ha.obligation]
      exact (ha.declared.filter _).map _
    exact List.toFinset_eq_of_perm _ _ (hperm.filter _)

end Alike

end Lineage
