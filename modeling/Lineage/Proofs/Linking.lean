import Lineage.Proofs.References

/-!
# The linked graph

What linking makes of declarations. `Linked` describes a graph by the edges that its declarations
own: what else it holds, the external types and the edges that put them under the root, follows from
those. Each reference linked adds one edge to them (`Linked.connect`), so that a whole run adds what
every declaration's references mean (`run_ends`).
-/

namespace Lineage

/-! ## How a computation ends -/

/-- A computation ends with a value that has one property or with an error that has another. -/
def Ends {ε α : Type} (fails : ε → Prop) (holds : α → Prop) : Except ε α → Prop
  | .error e => fails e
  | .ok a => holds a

namespace Ends

variable {ε α β : Type} {fails : ε → Prop}

theorem mono {holds holds' : α → Prop} {x : Except ε α} (hx : Ends fails holds x)
    (h : ∀ a, holds a → holds' a) : Ends fails holds' x := by
  cases x with
  | error e => exact hx
  | ok a => exact h a hx

theorem weaken {fails' : ε → Prop} {holds : α → Prop} {x : Except ε α} (hx : Ends fails holds x)
    (h : ∀ e, fails e → fails' e) : Ends fails' holds x := by
  cases x with
  | error e => exact h e hx
  | ok a => exact hx

theorem bind {holds : α → Prop} {holds' : β → Prop} {x : Except ε α} {f : α → Except ε β}
    (hx : Ends fails holds x) (hf : ∀ a, holds a → Ends fails holds' (f a)) :
    Ends fails holds' (x >>= f) := by
  cases x with
  | error e => exact hx
  | ok a => exact hf a hx

/-- A property of what is done so far, kept by every step, holds in the end of all that was to be
done. -/
theorem foldlM {holds : List α → β → Prop} {f : β → α → Except ε β} {done todo : List α} {b : β}
    (hstep : ∀ done, ∀ a ∈ todo, ∀ b, holds done b → Ends fails (holds (done ++ [a])) (f b a))
    (hb : holds done b) : Ends fails (holds (done ++ todo)) (todo.foldlM f b) := by
  induction todo generalizing done b with
  | nil =>
    rw [List.append_nil]
    exact hb
  | cons a todo ih =>
    rw [List.foldlM_cons, List.append_cons]
    refine (hstep done a List.mem_cons_self b hb).bind fun b' hb' => ?_
    exact ih (fun done c hc => hstep done c (List.mem_cons_of_mem _ hc)) hb'

theorem foldlM_nil (holds : List α → β → Prop) {f : β → α → Except ε β} {todo : List α} {b : β}
    (hstep : ∀ done, ∀ a ∈ todo, ∀ b, holds done b → Ends fails (holds (done ++ [a])) (f b a))
    (hb : holds [] b) : Ends fails (holds todo) (todo.foldlM f b) := by
  have hall := foldlM hstep hb
  rw [List.nil_append] at hall
  exact hall

end Ends

/-! ## Edges -/

/-- The kind of edge that a supertype reference makes. -/
def Role.edgeKind : Role → EdgeKind
  | asClass => .extension
  | asInterface => .implementation

/-- Some edge of a list extends a type. -/
def Extended (edges : List Edge) (name : TypeName) : Prop :=
  ∃ source, ⟨source, .extension, name⟩ ∈ edges

/-- Some edge of a list extends or implements a type. -/
def Inherited (edges : List Edge) (name : TypeName) : Prop :=
  ∃ source, ∃ role : Role, ⟨source, role.edgeKind, name⟩ ∈ edges

theorem Extended.inherited {edges : List Edge} {name : TypeName} (h : Extended edges name) :
    Inherited edges name :=
  h.imp fun _ hmem => ⟨.asClass, hmem⟩

theorem extended_append {edges : List Edge} {source name target : TypeName} {kind : EdgeKind} :
    Extended (edges ++ [⟨source, kind, target⟩]) name ↔
      Extended edges name ∨ kind = .extension ∧ target = name := by
  unfold Extended
  simp only [List.mem_append, List.mem_singleton, Edge.mk.injEq, exists_or]
  refine or_congr_right ⟨?_, ?_⟩
  · rintro ⟨s, -, rfl, rfl⟩
    exact ⟨rfl, rfl⟩
  · rintro ⟨rfl, rfl⟩
    exact ⟨source, rfl, rfl, rfl⟩

theorem inherited_append {edges : List Edge} {source name target : TypeName} {kind : EdgeKind} :
    Inherited (edges ++ [⟨source, kind, target⟩]) name ↔
      Inherited edges name ∨ (∃ role : Role, role.edgeKind = kind) ∧ target = name := by
  unfold Inherited
  simp only [List.mem_append, List.mem_singleton, Edge.mk.injEq, exists_or]
  refine or_congr_right ⟨?_, ?_⟩
  · rintro ⟨s, role, -, hkind, rfl⟩
    exact ⟨⟨role, hkind⟩, rfl⟩
  · rintro ⟨⟨role, hkind⟩, rfl⟩
    exact ⟨source, role, rfl, hkind, rfl⟩

/-- The edge that puts an external type under the root. -/
def Resolver.rootEdge (settings : Resolver) (name : TypeName) : Edge :=
  ⟨name, .extension, settings.rootType⟩

/-! ## Graphs by the edges of their declarations -/

/-- A graph of some declarations in which these edges are linked. All other edges put an external
type under the root, once each, and these are the external types that a declared class extends. -/
structure Linked (settings : Resolver) (declarations : List Declaration) (own : List Edge)
    (g : Graph) : Prop where
  root : g.root = settings.rootType
  aliases : g.aliases = settings.rootAliases
  declared : g.declared = declarations
  nodup_externals : (g.externals.map (·.name)).Nodup
  mem_externals : ∀ name, name ∈ g.externals.map (·.name) ↔
    settings.Foreign declarations name ∧ Inherited own name
  admitted : ∀ name ∈ g.externals.map (·.name), settings.admits name = true
  ofClass : ∀ e ∈ g.externals, e.role = .asClass → Extended own e.name
  ownEdges : g.edges.filter (·.source ∈ declarations.map (·.name)) = own
  rootEdges : ∃ rooted : List TypeName, rooted.Nodup ∧
    (∀ name, name ∈ rooted ↔ settings.Foreign declarations name ∧ Extended own name) ∧
    g.edges.filter (·.source ∉ declarations.map (·.name)) = rooted.map settings.rootEdge

namespace Linked

variable {settings : Resolver} {declarations : List Declaration} {own : List Edge} {g : Graph}

theorem unlinked (settings : Resolver) (declarations : List Declaration) :
    Linked settings declarations [] (Graph.unlinked settings declarations) where
  root := rfl
  aliases := rfl
  declared := rfl
  nodup_externals := List.nodup_nil
  mem_externals name := by simp [Graph.unlinked, Inherited]
  admitted name h := absurd h List.not_mem_nil
  ofClass e h := absurd h List.not_mem_nil
  ownEdges := rfl
  rootEdges := ⟨[], List.nodup_nil, by simp [Extended], rfl⟩

theorem typeNames_eq (h : Linked settings declarations own g) :
    g.typeNames = declarations.map (·.name) := by
  unfold Graph.typeNames
  rw [h.declared]

theorem isRootName (h : Linked settings declarations own g) (name : TypeName) :
    g.isRootName name = settings.isRoot name :=
  Graph.isRootName_eq h.root h.aliases name

theorem declared?_eq (h : Linked settings declarations own g) (name : TypeName) :
    g.declared? name = (Graph.unlinked settings declarations).declared? name := by
  unfold Graph.declared?
  rw [h.declared]
  rfl

theorem foreign_iff (h : Linked settings declarations own g) {name : TypeName} :
    settings.Foreign declarations name ↔ g.declared? name = none ∧ g.isRootName name = false := by
  rw [Graph.declared?_eq_none_iff, h.typeNames_eq, h.isRootName]
  rfl

theorem external?_eq_none_iff {name : TypeName} :
    g.external? name = none ↔ name ∉ g.externals.map (·.name) := by
  unfold Graph.external?
  simp [List.find?_eq_none]

theorem lt_nodeCount (h : Linked settings declarations own g) :
    declarations.length < g.nodeCount := by
  unfold Graph.nodeCount
  rw [h.declared]
  omega

theorem nodeCount_le (h : Linked settings declarations own g) {own' : List Edge} {g' : Graph}
    (h' : Linked settings declarations own' g') (hsub : own ⊆ own') :
    g.nodeCount ≤ g'.nodeCount := by
  have hnames : g.externals.map (·.name) ⊆ g'.externals.map (·.name) := by
    intro name hname
    obtain ⟨hforeign, source, role, hmem⟩ := (h.mem_externals name).1 hname
    exact (h'.mem_externals name).2 ⟨hforeign, source, role, hsub hmem⟩
  have hle := (h.nodup_externals.subperm hnames).length_le
  rw [List.length_map, List.length_map] at hle
  unfold Graph.nodeCount
  rw [h.declared, h'.declared]
  omega

theorem superclass?_eq_none_iff (h : Linked settings declarations own g) {name : TypeName}
    (hname : settings.Foreign declarations name) :
    g.superclass? name = none ↔ ¬ Extended own name := by
  obtain ⟨rooted, -, hmem, hrooted⟩ := h.rootEdges
  have hiff : settings.rootEdge name ∈ g.edges ↔ Extended own name := by
    have hfilter : settings.rootEdge name ∈
          g.edges.filter (·.source ∉ declarations.map (·.name)) ↔
        settings.rootEdge name ∈ g.edges := by
      rw [List.mem_filter, decide_eq_true_eq]
      exact and_iff_left hname.1
    rw [← hfilter, hrooted, List.mem_map]
    constructor
    · rintro ⟨other, hother, heq⟩
      obtain rfl : other = name := congrArg Edge.source heq
      exact ((hmem other).1 hother).2
    · intro hext
      exact ⟨name, (hmem name).2 ⟨hname, hext⟩, rfl⟩
  unfold Graph.superclass?
  rw [Option.map_eq_none_iff, List.find?_eq_none, ← hiff]
  constructor
  · intro hall hedge
    simpa [Resolver.rootEdge] using hall _ hedge
  · intro hno e he hsource
    rw [Bool.and_eq_true, decide_eq_true_eq, decide_eq_true_eq] at hsource
    have hfilter : e ∈ g.edges.filter (·.source ∉ declarations.map (·.name)) := by
      rw [List.mem_filter, decide_eq_true_eq, hsource.2]
      exact ⟨he, hname.1⟩
    rw [hrooted, List.mem_map] at hfilter
    obtain ⟨other, -, rfl⟩ := hfilter
    obtain rfl : other = name := hsource.2
    exact hno he

end Linked

/-! ## One reference -/

namespace Graph

/-- The graph after a supertype is named: an external type joins it or is used again. -/
def receive (g : Graph) (target : TypeName) (role : Role) : Graph :=
  if g.isRootName target || (g.declared? target).isSome then g
  else
    match g.external? target with
    | some entry => g.reuse entry role
    | none => g.enter target role

variable {g : Graph} {target : TypeName} {role : Role}

theorem reuse_eq (g : Graph) (role : Role) (entry : External) : g.reuse entry role = g ∨
    g.reuse entry role = g.join entry.name .extension g.root := by
  unfold reuse
  split
  · exact Or.inr rfl
  · exact Or.inl rfl

/-- Naming a supertype touches nothing but the external types and the edges. -/
theorem receive_eq (g : Graph) (target : TypeName) (role : Role) :
    ∃ externals edges, g.receive target role = { g with externals, edges } := by
  unfold receive
  split
  · exact ⟨_, _, rfl⟩
  · split
    · next entry _ =>
      rcases reuse_eq g role entry with h | h
      · exact ⟨_, _, h⟩
      · exact ⟨_, _, h⟩
    · cases role
      · exact ⟨_, _, rfl⟩
      · exact ⟨_, _, rfl⟩

@[simp]
theorem root_receive : (g.receive target role).root = g.root := by
  obtain ⟨_, _, h⟩ := receive_eq g target role
  rw [h]

@[simp]
theorem aliases_receive : (g.receive target role).aliases = g.aliases := by
  obtain ⟨_, _, h⟩ := receive_eq g target role
  rw [h]

@[simp]
theorem declared_receive : (g.receive target role).declared = g.declared := by
  obtain ⟨_, _, h⟩ := receive_eq g target role
  rw [h]

end Graph

namespace Linked

variable {settings : Resolver} {declarations : List Declaration} {own : List Edge} {g : Graph}
  {target : TypeName} {role : Role}

theorem receive_of_foreign (h : Linked settings declarations own g)
    (hforeign : settings.Foreign declarations target) :
    g.receive target role =
      match g.external? target with
      | some entry => g.reuse entry role
      | none => g.enter target role := by
  obtain ⟨hdeclared, hroot⟩ := h.foreign_iff.1 hforeign
  unfold Graph.receive
  rw [hdeclared, hroot]
  rfl

/-- A foreign type joins the external types when it is first named. -/
theorem externals_receive (h : Linked settings declarations own g) (role : Role)
    (hforeign : settings.Foreign declarations target) :
    (target ∈ g.externals.map (·.name) ∧ (g.receive target role).externals = g.externals) ∨
      (target ∉ g.externals.map (·.name) ∧
        (g.receive target role).externals = g.externals ++ [⟨target, role⟩]) := by
  rw [h.receive_of_foreign hforeign]
  cases hext : g.external? target with
  | none =>
    refine Or.inr ⟨external?_eq_none_iff.1 hext, ?_⟩
    cases role <;> rfl
  | some entry =>
    refine Or.inl ⟨?_, ?_⟩
    · by_contra hnot
      rw [external?_eq_none_iff.2 hnot] at hext
      exact nomatch hext
    · rcases Graph.reuse_eq g role entry with heq | heq <;> simp only [heq]
      rfl

/-- A foreign type comes under the root when it is first extended. -/
theorem edges_receive (h : Linked settings declarations own g) (role : Role)
    (hforeign : settings.Foreign declarations target) :
    ((role = .asClass → Extended own target) ∧ (g.receive target role).edges = g.edges) ∨
      (role = .asClass ∧ ¬ Extended own target ∧
        (g.receive target role).edges = g.edges ++ [settings.rootEdge target]) := by
  rw [h.receive_of_foreign hforeign]
  cases hext : g.external? target with
  | none =>
    have hnew : target ∉ g.externals.map (·.name) := external?_eq_none_iff.1 hext
    cases role with
    | asInterface => exact Or.inl ⟨fun hrole => (nomatch hrole), rfl⟩
    | asClass =>
      refine Or.inr ⟨rfl, fun hextended => ?_, ?_⟩
      · exact hnew ((h.mem_externals target).2 ⟨hforeign, hextended.inherited⟩)
      · rw [Resolver.rootEdge, ← h.root]
        rfl
  | some entry =>
    obtain ⟨hentry, rfl⟩ := Graph.mem_of_external? hext
    by_cases hextended : Extended own entry.name
    · refine Or.inl ⟨fun _ => hextended, ?_⟩
      have hsuper : g.superclass? entry.name ≠ none := fun hnone =>
        (h.superclass?_eq_none_iff hforeign).1 hnone hextended
      simp only [Graph.reuse, hsuper, and_false, if_false]
    · have hsuper : g.superclass? entry.name = none :=
        (h.superclass?_eq_none_iff hforeign).2 hextended
      cases role with
      | asInterface =>
        refine Or.inl ⟨fun hrole => (nomatch hrole), ?_⟩
        simp [Graph.reuse]
      | asClass =>
        have hrole : entry.role ≠ .asClass := fun hrole => hextended (h.ofClass entry hentry hrole)
        refine Or.inr ⟨rfl, hextended, ?_⟩
        simp only [Graph.reuse, hrole, hsuper, ne_eq, not_false_eq_true, and_self, if_true]
        rw [Resolver.rootEdge, ← h.root]
        rfl

/-- One more edge of a declaration, from a declared type to one that needs no entry. -/
theorem join (h : Linked settings declarations own g) {source : TypeName} {kind : EdgeKind}
    (hsource : source ∈ declarations.map (·.name))
    (htarget : (∃ role : Role, role.edgeKind = kind) → ¬ settings.Foreign declarations target) :
    Linked settings declarations (own ++ [⟨source, kind, target⟩])
      (g.join source kind target) where
  root := h.root
  aliases := h.aliases
  declared := h.declared
  nodup_externals := h.nodup_externals
  mem_externals name := by
    rw [inherited_append, and_or_left]
    refine (h.mem_externals name).trans (or_iff_left ?_).symm
    rintro ⟨hforeign, hkind, rfl⟩
    exact htarget hkind hforeign
  admitted := h.admitted
  ofClass e he hrole := extended_append.2 (Or.inl (h.ofClass e he hrole))
  ownEdges := by
    show (g.edges ++ [_]).filter _ = _
    rw [List.filter_append, h.ownEdges, List.filter_singleton, decide_eq_true hsource]
    rfl
  rootEdges := by
    obtain ⟨rooted, hnodup, hmem, hrooted⟩ := h.rootEdges
    refine ⟨rooted, hnodup, fun name => ?_, ?_⟩
    · rw [extended_append, and_or_left]
      refine (hmem name).trans (or_iff_left ?_).symm
      rintro ⟨hforeign, rfl, rfl⟩
      exact htarget ⟨.asClass, rfl⟩ hforeign
    · show (g.edges ++ [_]).filter _ = _
      rw [List.filter_append, hrooted, List.filter_singleton]
      simp [hsource]

/-- One more edge of a declaration, from a declared type to an external one. -/
theorem connect (h : Linked settings declarations own g) (role : Role) {source : TypeName}
    (hsource : source ∈ declarations.map (·.name))
    (hforeign : settings.Foreign declarations target) (hadmits : settings.admits target = true) :
    Linked settings declarations (own ++ [⟨source, role.edgeKind, target⟩])
      ((g.receive target role).join source role.edgeKind target) where
  root := (Graph.root_receive (g := g)).trans h.root
  aliases := (Graph.aliases_receive (g := g)).trans h.aliases
  declared := (Graph.declared_receive (g := g)).trans h.declared
  nodup_externals := by
    show ((g.receive target role).externals.map (·.name)).Nodup
    rcases h.externals_receive role hforeign with ⟨-, heq⟩ | ⟨hnew, heq⟩
    · rw [heq]
      exact h.nodup_externals
    · rw [heq, List.map_append, List.map_singleton, ← List.concat_eq_append]
      exact h.nodup_externals.concat hnew
  mem_externals name := by
    show name ∈ (g.receive target role).externals.map (·.name) ↔ _
    rw [inherited_append, and_or_left, ← h.mem_externals name]
    have hiff : settings.Foreign declarations name ∧
        (∃ r : Role, r.edgeKind = role.edgeKind) ∧ target = name ↔ target = name := by
      refine ⟨fun hall => hall.2.2, ?_⟩
      rintro rfl
      exact ⟨hforeign, ⟨role, rfl⟩, rfl⟩
    rw [hiff]
    rcases h.externals_receive role hforeign with ⟨hold, heq⟩ | ⟨-, heq⟩
    · rw [heq]
      refine (or_iff_left_of_imp ?_).symm
      rintro rfl
      exact hold
    · rw [heq, List.map_append, List.map_singleton, List.mem_append, List.mem_singleton,
        eq_comm (a := target)]
  admitted name hname := by
    replace hname : name ∈ (g.receive target role).externals.map (·.name) := hname
    rcases h.externals_receive role hforeign with ⟨-, heq⟩ | ⟨-, heq⟩
    · exact h.admitted name (heq ▸ hname)
    · rw [heq, List.map_append, List.map_singleton] at hname
      rcases List.mem_append.1 hname with hname | hname
      · exact h.admitted name hname
      · exact List.mem_singleton.1 hname ▸ hadmits
  ofClass e he hrole := by
    replace he : e ∈ (g.receive target role).externals := he
    rw [extended_append]
    rcases h.externals_receive role hforeign with ⟨-, heq⟩ | ⟨-, heq⟩
    · exact Or.inl (h.ofClass e (heq ▸ he) hrole)
    · rw [heq] at he
      rcases List.mem_append.1 he with he | he
      · exact Or.inl (h.ofClass e he hrole)
      · obtain rfl := List.mem_singleton.1 he
        obtain rfl : role = .asClass := hrole
        exact Or.inr ⟨rfl, rfl⟩
  ownEdges := by
    show ((g.receive target role).edges ++ [_]).filter _ = _
    rw [List.filter_append, List.filter_singleton, decide_eq_true hsource]
    rcases h.edges_receive role hforeign with ⟨-, heq⟩ | ⟨-, -, heq⟩
    · rw [heq, h.ownEdges]
      rfl
    · rw [heq, List.filter_append, h.ownEdges, List.filter_singleton,
        decide_eq_false (p := (settings.rootEdge target).source ∈ _) hforeign.1]
      simp
  rootEdges := by
    obtain ⟨rooted, hnodup, hmem, hrooted⟩ := h.rootEdges
    have hlast : [(⟨source, role.edgeKind, target⟩ : Edge)].filter
        (·.source ∉ declarations.map (·.name)) = [] := by
      rw [List.filter_singleton]
      simp [hsource]
    have hjoin : ((g.receive target role).join source role.edgeKind target).edges =
        (g.receive target role).edges ++ [⟨source, role.edgeKind, target⟩] := rfl
    rw [hjoin, List.filter_append, hlast, List.append_nil]
    rcases h.edges_receive role hforeign with ⟨hold, heq⟩ | ⟨hrole, hnew, heq⟩
    · refine ⟨rooted, hnodup, fun name => ?_, heq ▸ hrooted⟩
      rw [extended_append, hmem name]
      refine and_congr_right fun _ => (or_iff_left_of_imp ?_).symm
      rintro ⟨hkind, rfl⟩
      cases role with
      | asClass => exact hold rfl
      | asInterface => exact nomatch hkind
    · refine ⟨rooted ++ [target], ?_, fun name => ?_, ?_⟩
      · rw [← List.concat_eq_append]
        exact hnodup.concat fun hold => hnew ((hmem target).1 hold).2
      · rw [List.mem_append, List.mem_singleton, hmem name, extended_append, and_or_left, hrole]
        refine or_congr_right ⟨?_, fun hall => hall.2.2.symm⟩
        rintro rfl
        exact ⟨hforeign, rfl, rfl⟩
      · rw [heq, List.filter_append, hrooted, List.filter_singleton, List.map_append]
        simp [Resolver.rootEdge, hforeign.1]

end Linked

end Lineage
