import Lineage.Proofs.References

/-!
# Linking and methods

Linking looks at names, kinds and references, and at no methods: to link declarations without their
methods is to link them and leave the methods out afterwards (`Linking.run_outline`). So what is
said about methods decides neither whether linking succeeds nor which edges it makes
(`Linking.run_of_outline_eq`).
-/

namespace Lineage

/-- A declaration without its methods. -/
def Declaration.outline (d : Declaration) : Declaration :=
  { d with methods := [] }

def Graph.outline (g : Graph) : Graph :=
  { g with declared := g.declared.map Declaration.outline }

def Linking.outline (l : Linking) : Linking :=
  { l with graph := l.graph.outline }

namespace Declaration

variable (d : Declaration)

@[simp]
theorem name_outline : d.outline.name = d.name := rfl

@[simp]
theorem kind_outline : d.outline.kind = d.kind := rfl

@[simp]
theorem superclass_outline : d.outline.superclass = d.superclass := rfl

@[simp]
theorem interfaces_outline : d.outline.interfaces = d.interfaces := rfl

@[simp]
theorem enclosingType_outline : d.outline.enclosingType = d.enclosingType := rfl

end Declaration

theorem Graph.eq_of_outline_eq {g g' : Graph} (h : g.outline = g'.outline) :
    g.root = g'.root ∧ g.aliases = g'.aliases ∧ g.externals = g'.externals ∧
      g.edges = g'.edges := by
  obtain ⟨hroot, haliases, -, hexternals, hedges⟩ := Graph.mk.inj h
  exact ⟨hroot, haliases, hexternals, hedges⟩

@[simp]
theorem Linking.graph_outline (l : Linking) : l.outline.graph = l.graph.outline := rfl

/-! ## Steps on images -/

section Steps

variable {ε α α' β β' : Type} {φ : β → β'} {ψ : α → α'}

/-- Steps that do to images what others do to what they are images of. -/
theorem map_bind_of_comm {x : Except ε α} {f : α → Except ε β} {f' : α' → Except ε β'}
    (h : ∀ a, f' (ψ a) = (f a).map φ) : x.map ψ >>= f' = (x >>= f).map φ := by
  cases x with
  | error e => rfl
  | ok a => exact h a

theorem foldlM_map_of_comm {f : β → α → Except ε β} {f' : β' → α' → Except ε β'}
    (h : ∀ b a, f' (φ b) (ψ a) = (f b a).map φ) (as : List α) (b : β) :
    (as.map ψ).foldlM f' (φ b) = (as.foldlM f b).map φ := by
  induction as generalizing b with
  | nil => rfl
  | cons a as ih =>
    rw [List.map_cons, List.foldlM_cons, List.foldlM_cons, h]
    exact map_bind_of_comm ih

end Steps

/-! ## References -/

namespace Graph

variable (g : Graph)

theorem declared?_outline (name : TypeName) :
    g.outline.declared? name = (g.declared? name).map Declaration.outline := by
  unfold declared? outline
  rw [List.find?_map]
  rfl

theorem outerName_outline (name : TypeName) : g.outline.outerName name = g.outerName name := by
  unfold outerName
  rw [declared?_outline]
  cases g.declared? name <;> rfl

theorem lookupMember_outline (reference : TypeName) (bound : Nat) (scope : TypeName) :
    g.outline.lookupMember reference bound scope =
      (g.lookupMember reference bound scope).map Declaration.outline := by
  induction bound generalizing scope with
  | zero => rfl
  | succ bound ih =>
    rw [lookupMember, lookupMember, declared?_outline, outerName_outline]
    cases g.declared? (TypeName.member scope reference) with
    | some d => rfl
    | none =>
      cases g.outerName scope with
      | none => rfl
      | some outer => exact ih outer

theorem lookupPackage_outline (source reference : TypeName) :
    g.outline.lookupPackage source reference =
      (g.lookupPackage source reference).map Declaration.outline := by
  unfold lookupPackage
  split_ifs
  · rfl
  · cases TypeName.package source with
    | none => rfl
    | some package => exact g.declared?_outline _

theorem nodeCount_outline : g.outline.nodeCount = g.nodeCount := by
  unfold nodeCount outline
  rw [List.length_map]

theorem lookup_outline (source reference : TypeName) :
    g.outline.lookup source reference =
      (g.lookup source reference).map Declaration.outline := by
  unfold lookup
  rw [declared?_outline, lookupMember_outline, lookupPackage_outline, nodeCount_outline,
    Option.map_or, Option.map_or]

theorem resolve_outline (settings : Resolver) (source reference : TypeName) :
    g.outline.resolve settings source reference = g.resolve settings source reference := by
  unfold resolve
  rw [lookup_outline]
  cases g.lookup source reference <;> rfl

theorem enter_outline (name : TypeName) (role : Role) :
    g.outline.enter name role = (g.enter name role).outline := by
  cases role <;> rfl

theorem reuse_outline (entry : External) (role : Role) :
    g.outline.reuse entry role = (g.reuse entry role).outline := by
  unfold reuse
  rw [show g.outline.superclass? entry.name = g.superclass? entry.name from rfl]
  split_ifs <;> rfl

theorem declare_outline (d : Declaration) :
    g.outline.declare d.outline = (g.declare d).map outline := by
  unfold declare
  rw [d.name_outline, declared?_outline, Option.isSome_map,
    show g.outline.isRootName d.name = g.isRootName d.name from rfl]
  split_ifs
  · rfl
  · show Except.ok _ = Except.ok _
    unfold outline
    rw [List.map_append]
    rfl

theorem ofDeclarations_outline (settings : Resolver) (declarations : List Declaration) :
    ofDeclarations settings (declarations.map Declaration.outline) =
      (ofDeclarations settings declarations).map outline := by
  rw [ofDeclarations_eq, ofDeclarations_eq]
  exact foldlM_map_of_comm declare_outline declarations (unlinked settings [])

end Graph

/-! ## Declarations -/

namespace Linking

variable (settings : Resolver) (l : Linking) (d : Declaration)

theorem supertype_outline (source reference : TypeName) (role : Role) :
    l.outline.supertype settings source reference role =
      (l.supertype settings source reference role).map (Prod.map id outline) := by
  unfold supertype
  simp only [graph_outline, Graph.resolve_outline, Graph.reuse_outline, Graph.enter_outline]
  cases l.graph.resolve settings source reference <;> rfl

theorem superclass_outline :
    l.outline.superclass settings d.outline = (l.superclass settings d).map outline := by
  unfold superclass
  rw [d.kind_outline, d.superclass_outline, d.name_outline]
  split_ifs
  · cases d.superclass with
    | none => rfl
    | some reference =>
      simp only [supertype_outline]
      exact map_bind_of_comm fun _ => rfl
  · rfl

theorem interface_outline (reference : TypeName) :
    l.outline.interface settings d.outline reference =
      (l.interface settings d reference).map outline := by
  unfold interface
  rw [d.name_outline, supertype_outline]
  exact map_bind_of_comm fun _ => rfl

theorem enclosing_outline : l.outline.enclosing d.outline = (l.enclosing d).map outline := by
  unfold enclosing
  rw [d.enclosingType_outline, d.name_outline, graph_outline]
  cases d.enclosingType with
  | some reference =>
    simp only [Graph.lookup_outline]
    cases l.graph.lookup d.name reference <;> rfl
  | none =>
    simp only []
    cases TypeName.impliedOuter d.name with
    | none => rfl
    | some outer =>
      rw [Option.bind_some, Option.bind_some, Graph.declared?_outline]
      cases l.graph.declared? outer <;> rfl

theorem declaration_outline :
    l.outline.declaration settings d.outline = (l.declaration settings d).map outline := by
  unfold declaration
  rw [superclass_outline]
  refine map_bind_of_comm fun l => ?_
  have hinterfaces := foldlM_map_of_comm (ψ := id)
    (fun l reference => interface_outline settings l d reference) d.interfaces l
  rw [List.map_id] at hinterfaces
  rw [d.interfaces_outline, hinterfaces]
  exact map_bind_of_comm fun l => l.enclosing_outline d

/-! ## Whole runs -/

/-- To link declarations without methods is to link them and leave the methods out. -/
theorem run_outline (declarations : List Declaration) :
    run settings (declarations.map Declaration.outline) =
      (run settings declarations).map outline := by
  unfold run
  rw [Graph.ofDeclarations_outline]
  cases Graph.ofDeclarations settings declarations with
  | error e => rfl
  | ok g =>
    exact foldlM_map_of_comm (declaration_outline settings) declarations (Linking.mk g [])

/-- Declarations that differ only in their methods are not linked for the same reason, or into
graphs that differ only in the methods. -/
theorem run_of_outline_eq {declarations declarations' : List Declaration}
    (h : declarations.map Declaration.outline = declarations'.map Declaration.outline) :
    (∃ f, run settings declarations = .error f ∧ run settings declarations' = .error f) ∨
      ∃ l l', run settings declarations = .ok l ∧ run settings declarations' = .ok l' ∧
        l.graph.outline = l'.graph.outline := by
  have hrun := (run_outline settings declarations).symm.trans
    ((congrArg (run settings) h).trans (run_outline settings declarations'))
  cases hl : run settings declarations with
  | error f =>
    rw [hl] at hrun
    cases hl' : run settings declarations' with
    | error f' =>
      rw [hl'] at hrun
      obtain rfl := Except.error.inj hrun
      exact Or.inl ⟨f, rfl, rfl⟩
    | ok l' =>
      rw [hl'] at hrun
      exact nomatch hrun
  | ok l =>
    rw [hl] at hrun
    cases hl' : run settings declarations' with
    | error f' =>
      rw [hl'] at hrun
      exact nomatch hrun
    | ok l' =>
      rw [hl'] at hrun
      exact Or.inr ⟨l, l', rfl, rfl, congrArg Linking.graph (Except.ok.inj hrun)⟩

end Linking

end Lineage
