import Lineage.Proofs.LinkRun
import Lineage.Proofs.Reachability

/-!
# What a linked graph joins

The edges around each type of a linked graph. A declared type leads to what its references mean and
lies where its outer type does; an external type leads to the root, if a class extends it, and to
nothing else; the root leads nowhere.
-/

namespace Lineage

/-! ## Lists with keys -/

/-- Where keys are not repeated, the part of a list under one key is what its only entry gives. -/
theorem flatMap_eq_of_nodup {α β γ : Type} {key : α → γ} {f : α → List β} {xs : List α}
    (hnodup : (xs.map key).Nodup) {x : α} (hx : x ∈ xs)
    (hother : ∀ y ∈ xs, key y ≠ key x → f y = []) : xs.flatMap f = f x := by
  obtain ⟨before, after, rfl⟩ := List.append_of_mem hx
  rw [List.map_append, List.map_cons] at hnodup
  have hbefore : before.flatMap f = [] := by
    refine List.flatMap_eq_nil_iff.2 fun y hy => hother y (List.mem_append_left _ hy) fun hkey => ?_
    have hmem : key x ∈ before.map key := hkey ▸ List.mem_map_of_mem hy
    exact List.disjoint_of_nodup_append hnodup hmem List.mem_cons_self
  have hafter : after.flatMap f = [] := by
    refine List.flatMap_eq_nil_iff.2 fun y hy => hother y ?_ fun hkey => ?_
    · exact List.mem_append_right _ (List.mem_cons_of_mem _ hy)
    · have hmem : key x ∈ after.map key := hkey ▸ List.mem_map_of_mem hy
      exact (List.nodup_cons.1 (List.nodup_append'.1 hnodup).2.1).1 hmem
  rw [List.flatMap_append, List.flatMap_cons, hbefore, hafter, List.nil_append, List.append_nil]

/-! ## Edges of one kind around a type -/

namespace Links

theorem mem_edges {k : Links} {name : TypeName} {e : Edge} : e ∈ k.edges name ↔
    (∃ target, k.superclass = some target ∧ e = ⟨name, .extension, target⟩) ∨
      (∃ target ∈ k.interfaces, e = ⟨name, .implementation, target⟩) ∨
      ∃ outer, k.outer = some outer ∧ e = ⟨outer, .enclosure, name⟩ := by
  unfold edges
  simp only [List.mem_append, List.mem_map, Option.mem_toList, or_assoc, eq_comm (b := e)]

theorem filter_extension (k : Links) (name source : TypeName) :
    (k.edges name).filter (fun e => e.kind = .extension ∧ e.source = source) =
      if name = source then k.superclass.toList.map (⟨name, .extension, ·⟩) else [] := by
  unfold Links.edges
  split_ifs with h <;> simp [List.filter_map, Function.comp_def, h]

theorem filter_implementation (k : Links) (name source : TypeName) :
    (k.edges name).filter (fun e => e.kind = .implementation ∧ e.source = source) =
      if name = source then k.interfaces.map (⟨name, .implementation, ·⟩) else [] := by
  unfold Links.edges
  split_ifs with h <;> simp [List.filter_map, Function.comp_def, h]

theorem filter_enclosure (k : Links) (name target : TypeName) :
    (k.edges name).filter (fun e => e.kind = .enclosure ∧ e.target = target) =
      if name = target then k.outer.toList.map (⟨·, .enclosure, name⟩) else [] := by
  unfold Links.edges
  split_ifs with h <;> simp [List.filter_map, Function.comp_def, h]

end Links

namespace Graph

theorem targets_eq (g : Graph) (name : TypeName) (kind : EdgeKind) :
    g.targets name kind =
      (g.edges.filter fun e => e.kind = kind ∧ e.source = name).map (·.target) := by
  unfold targets along Digraph.successors
  rw [List.filter_map, List.filter_filter, List.map_map]
  simp only [Function.comp_def, Bool.decide_and, Bool.and_comm]

theorem mem_targets {g : Graph} {name target : TypeName} {kind : EdgeKind} :
    target ∈ g.targets name kind ↔ ⟨name, kind, target⟩ ∈ g.edges := by
  rw [targets_eq, List.mem_map]
  constructor
  · rintro ⟨e, he, rfl⟩
    obtain ⟨hmem, heq⟩ := List.mem_filter.1 he
    obtain ⟨rfl, rfl⟩ := of_decide_eq_true heq
    exact hmem
  · intro hmem
    exact ⟨_, List.mem_filter.2 ⟨hmem, decide_eq_true ⟨rfl, rfl⟩⟩, rfl⟩

theorem targets_eq_filter_source (g : Graph) (name : TypeName) (kind : EdgeKind) :
    g.targets name kind =
      ((g.edges.filter (·.source = name)).filter (·.kind = kind)).map (·.target) := by
  rw [targets_eq, List.filter_filter]
  simp only [Bool.decide_and]

theorem successors_nesting_eq (g : Graph) (name : TypeName) :
    g.nesting.successors name =
      (g.edges.filter fun e => e.kind = .enclosure ∧ e.target = name).map (·.source) := by
  unfold nesting Digraph.successors
  rw [List.filter_map, List.filter_filter, List.map_map]
  simp only [Function.comp_def, Bool.decide_and, Bool.and_comm]

theorem adj_inheritance {g : Graph} {a b : TypeName} :
    g.inheritance.Adj a b ↔ b ∈ g.targets a .extension ∨ b ∈ g.targets a .implementation := by
  rw [targets_eq, targets_eq]
  unfold inheritance Digraph.Adj
  simp only [List.mem_map, List.mem_filter, decide_eq_true_eq, Prod.mk.injEq, ← exists_or]
  refine exists_congr fun e => ⟨?_, ?_⟩
  · rintro ⟨⟨he, hkind⟩, rfl, rfl⟩
    cases hk : e.kind with
    | extension => exact Or.inl ⟨⟨he, rfl, rfl⟩, rfl⟩
    | implementation => exact Or.inr ⟨⟨he, rfl, rfl⟩, rfl⟩
    | enclosure =>
      rw [hk] at hkind
      exact nomatch hkind
  · rintro (⟨⟨he, hkind, rfl⟩, rfl⟩ | ⟨⟨he, hkind, rfl⟩, rfl⟩) <;>
      exact ⟨⟨he, by rw [hkind]; rfl⟩, rfl, rfl⟩

end Graph

/-! ## Linked graphs -/

/-- A graph of declarations in which the references of the first of them are linked, to the types
that they mean. -/
structure PartialLinkage (settings : Resolver) (declarations : List Declaration)
    (links : List (Declaration × Links)) (g : Graph) : Prop where
  named : settings.WellNamed declarations
  initial : links.map (·.1) <+: declarations
  reads : ∀ p ∈ links, settings.Reads declarations g.nodeCount p.1 p.2
  linked : Linked settings declarations (ownEdges links) g

/-- A graph made of declarations whose references mean these types. -/
structure Linkage (settings : Resolver) (declarations : List Declaration)
    (links : List (Declaration × Links)) (g : Graph) : Prop
    extends PartialLinkage settings declarations links g where
  fst_eq : links.map (·.1) = declarations

theorem partialLinkage_of_foldlM {settings : Resolver} {declarations done : List Declaration}
    (hnamed : settings.WellNamed declarations) (hdone : done <+: declarations) {l : Linking}
    (h : done.foldlM (Linking.declaration settings) ⟨Graph.unlinked settings declarations, []⟩ =
      .ok l) :
    ∃ links, links.map (·.1) = done ∧ PartialLinkage settings declarations links l.graph := by
  have hends := @foldlM_declaration_ends settings declarations done fun d hd => hdone.subset hd
  rw [h] at hends
  obtain ⟨links, hfst, hreads, hlinked⟩ := hends
  exact ⟨links, hfst, hnamed, hfst ▸ hdone, hreads, hlinked⟩

/-- A run that ends well has linked all references. -/
theorem linkage_of_run {settings : Resolver} {declarations : List Declaration} {l : Linking}
    (h : Linking.run settings declarations = .ok l) :
    ∃ links, Linkage settings declarations links l.graph := by
  have hends := run_ends settings declarations
  rw [h] at hends
  obtain ⟨hnamed, links, hfst, hreads, hlinked⟩ := hends
  exact ⟨links, ⟨hnamed, hfst ▸ List.prefix_rfl, hreads, hlinked⟩, hfst⟩

namespace Linkage

variable {settings : Resolver} {declarations : List Declaration}
  {links : List (Declaration × Links)} {g : Graph}

theorem exists_links (h : Linkage settings declarations links g) {d : Declaration}
    (hd : d ∈ declarations) : ∃ k, (d, k) ∈ links := by
  rw [← h.fst_eq, List.mem_map] at hd
  obtain ⟨⟨_, k⟩, hp, rfl⟩ := hd
  exact ⟨k, hp⟩

theorem exists_of_mem_names (h : Linkage settings declarations links g) {name : TypeName}
    (hname : name ∈ declarations.map (·.name)) : ∃ d k, (d, k) ∈ links ∧ d.name = name := by
  obtain ⟨d, hd, rfl⟩ := List.mem_map.1 hname
  obtain ⟨k, hk⟩ := h.exists_links hd
  exact ⟨d, k, hk, rfl⟩

end Linkage

namespace PartialLinkage

variable {settings : Resolver} {declarations : List Declaration}
  {links : List (Declaration × Links)} {g : Graph}

theorem mem_declarations (h : PartialLinkage settings declarations links g)
    {p : Declaration × Links} (hp : p ∈ links) : p.1 ∈ declarations :=
  h.initial.subset (List.mem_map_of_mem hp)

theorem nodup_names (h : PartialLinkage settings declarations links g) :
    (links.map (·.1.name)).Nodup := by
  have hsub := (h.initial.sublist.map (·.name)).nodup h.named.nodup
  rw [List.map_map] at hsub
  exact hsub

theorem declared?_eq_some_iff (h : PartialLinkage settings declarations links g) {name : TypeName}
    {d : Declaration} : g.declared? name = some d ↔ d ∈ declarations ∧ d.name = name := by
  rw [Graph.declared?_eq_some_iff (h.linked.typeNames_eq ▸ h.named.nodup), h.linked.declared]

theorem declared?_eq_none_iff (h : PartialLinkage settings declarations links g) {name : TypeName} :
    g.declared? name = none ↔ name ∉ declarations.map (·.name) := by
  rw [Graph.declared?_eq_none_iff, h.linked.typeNames_eq]

theorem root_not_mem (h : PartialLinkage settings declarations links g) :
    g.root ∉ declarations.map (·.name) := by
  rw [h.linked.root]
  exact h.named.rootType_not_mem

/-! ### All edges -/

/-- The edges are those of the declarations and those that put external types under the root. -/
theorem edges_perm (h : PartialLinkage settings declarations links g) :
    ∃ rooted : List TypeName, rooted.Nodup ∧
      (∀ name, name ∈ rooted ↔
        settings.Foreign declarations name ∧ Extended (ownEdges links) name) ∧
      g.edges.Perm (ownEdges links ++ rooted.map settings.rootEdge) := by
  obtain ⟨rooted, hnodup, hmem, hrooted⟩ := h.linked.rootEdges
  refine ⟨rooted, hnodup, hmem, ?_⟩
  have hperm := List.filter_append_perm (fun e => decide (e.source ∈ declarations.map (·.name)))
    g.edges
  have hnot : g.edges.filter (fun e => !decide (e.source ∈ declarations.map (·.name))) =
      g.edges.filter (·.source ∉ declarations.map (·.name)) := by
    simp only [decide_not]
  rw [hnot, hrooted, h.linked.ownEdges] at hperm
  exact hperm.symm

theorem mem_edges (h : PartialLinkage settings declarations links g) {e : Edge} :
    e ∈ g.edges ↔ e ∈ ownEdges links ∨
      ∃ name, settings.Foreign declarations name ∧ Extended (ownEdges links) name ∧
        e = settings.rootEdge name := by
  obtain ⟨rooted, -, hmem, hperm⟩ := h.edges_perm
  rw [hperm.mem_iff, List.mem_append, List.mem_map]
  refine or_congr_right (exists_congr fun name => ?_)
  rw [hmem name, and_assoc, eq_comm (a := e)]

theorem extended_iff (h : PartialLinkage settings declarations links g) {name : TypeName} :
    Extended (ownEdges links) name ↔
      ∃ p ∈ links, p.1.kind.isClass = true ∧ p.2.superclass = some name := by
  constructor
  · rintro ⟨source, hmem⟩
    obtain ⟨p, hp, hedge⟩ := List.mem_flatMap.1 hmem
    rcases Links.mem_edges.1 hedge with ⟨target, hsuper, heq⟩ | ⟨_, -, heq⟩ | ⟨_, -, heq⟩
    · obtain rfl : name = target := congrArg Edge.target heq
      have hmeans := (h.reads p hp).superclass
      rw [hsuper] at hmeans
      exact ⟨p, hp, hmeans.target_cases.1, hsuper⟩
    · exact nomatch heq
    · exact nomatch heq
  · rintro ⟨p, hp, -, hsuper⟩
    exact ⟨p.1.name, List.mem_flatMap.2 ⟨p, hp, Links.mem_edges.2 (Or.inl ⟨_, hsuper, rfl⟩)⟩⟩

/-- The edges with a property that no edge to the root has from an external type. -/
theorem filter_edges (h : PartialLinkage settings declarations links g) {p : Edge → Bool}
    (hp : ∀ name, settings.Foreign declarations name → p (settings.rootEdge name) = false) :
    g.edges.filter p = links.flatMap fun q => (q.2.edges q.1.name).filter p := by
  have hown : g.edges.filter p = (ownEdges links).filter p := by
    rw [← h.linked.ownEdges, List.filter_filter]
    refine List.filter_congr fun e he => ?_
    by_cases hsource : e.source ∈ declarations.map (·.name)
    · rw [decide_eq_true hsource, Bool.and_true]
    · rw [decide_eq_false hsource, Bool.and_false]
      rcases h.mem_edges.1 he with hmem | ⟨name, hforeign, -, rfl⟩
      · rw [← h.linked.ownEdges, List.mem_filter, decide_eq_true_eq] at hmem
        exact absurd hmem.2 hsource
      · exact hp name hforeign
  rw [hown, ownEdges, List.filter_flatMap]

/-! ### Around a declared type -/

variable {d : Declaration} {k : Links}

/-- The edges that only one declaration makes. -/
theorem filter_edges_eq (h : PartialLinkage settings declarations links g) (hk : (d, k) ∈ links)
    {p : Edge → Bool}
    (hp : ∀ name, settings.Foreign declarations name → p (settings.rootEdge name) = false)
    (hother : ∀ q ∈ links, q.1.name ≠ d.name → (q.2.edges q.1.name).filter p = []) :
    g.edges.filter p = (k.edges d.name).filter p := by
  rw [h.filter_edges hp]
  exact flatMap_eq_of_nodup h.nodup_names hk hother

theorem not_rootEdge_of_source (h : PartialLinkage settings declarations links g)
    (hk : (d, k) ∈ links) (kind : EdgeKind) {name : TypeName}
    (hname : settings.Foreign declarations name) :
    decide ((settings.rootEdge name).kind = kind ∧ (settings.rootEdge name).source = d.name) =
      false := by
  refine decide_eq_false fun hall => hname.1 ?_
  rw [show name = d.name from hall.2]
  exact List.mem_map_of_mem (h.mem_declarations hk)

theorem targets_extension (h : PartialLinkage settings declarations links g)
    (hk : (d, k) ∈ links) :
    g.targets d.name .extension = k.superclass.toList := by
  rw [Graph.targets_eq, h.filter_edges_eq hk fun _ => h.not_rootEdge_of_source hk _,
    Links.filter_extension, if_pos rfl, List.map_map]
  · exact List.map_id _
  · intro q _ hne
    rw [Links.filter_extension, if_neg hne]

theorem targets_implementation (h : PartialLinkage settings declarations links g)
    (hk : (d, k) ∈ links) :
    g.targets d.name .implementation = k.interfaces := by
  rw [Graph.targets_eq, h.filter_edges_eq hk fun _ => h.not_rootEdge_of_source hk _,
    Links.filter_implementation, if_pos rfl, List.map_map]
  · exact List.map_id _
  · intro q _ hne
    rw [Links.filter_implementation, if_neg hne]

theorem superclass?_eq (h : PartialLinkage settings declarations links g) (hk : (d, k) ∈ links) :
    g.superclass? d.name = k.superclass := by
  rw [Graph.superclass?_eq_head?, h.targets_extension hk]
  cases k.superclass <;> rfl

theorem successors_nesting (h : PartialLinkage settings declarations links g)
    (hk : (d, k) ∈ links) :
    g.nesting.successors d.name = k.outer.toList := by
  rw [Graph.successors_nesting_eq, h.filter_edges_eq hk, Links.filter_enclosure, if_pos rfl,
    List.map_map]
  · exact List.map_id _
  · intro name _
    exact decide_eq_false fun hall => EdgeKind.noConfusion hall.1
  · intro q _ hne
    rw [Links.filter_enclosure, if_neg hne]

theorem enclosing?_eq (h : PartialLinkage settings declarations links g) (hk : (d, k) ∈ links) :
    g.enclosing? d.name = k.outer := by
  rw [Graph.enclosing?_eq_head?, h.successors_nesting hk]
  cases k.outer <;> rfl

/-! ### Around other names -/

/-- The edges of a type that nobody declares: one to the root, if it is an external type that some
class extends. -/
theorem filter_source_of_not_declared (h : PartialLinkage settings declarations links g)
    {name : TypeName} (hname : name ∉ declarations.map (·.name)) :
    (settings.Foreign declarations name ∧ Extended (ownEdges links) name) ∧
        g.edges.filter (·.source = name) = [settings.rootEdge name] ∨
      ¬ (settings.Foreign declarations name ∧ Extended (ownEdges links) name) ∧
        g.edges.filter (·.source = name) = [] := by
  obtain ⟨rooted, hnodup, hmem, hrooted⟩ := h.linked.rootEdges
  have hrest : g.edges.filter (·.source = name) =
      (rooted.filter (· = name)).map settings.rootEdge := by
    have hcomp : (rooted.map settings.rootEdge).filter (·.source = name) =
        (rooted.filter (· = name)).map settings.rootEdge := List.filter_map
    rw [← hcomp, ← hrooted, List.filter_filter]
    refine List.filter_congr fun e _ => ?_
    by_cases he : e.source = name
    · rw [decide_eq_true he, decide_eq_true (he ▸ hname), Bool.and_true]
    · rw [decide_eq_false he, Bool.false_and]
  rw [hrest, ← hmem name]
  by_cases hin : name ∈ rooted
  · refine Or.inl ⟨hin, ?_⟩
    have hone : rooted.filter (· = name) = rooted.filter (· == name) := by
      simp only [beq_eq_decide]
    rw [hone, List.filter_beq, List.count_eq_one_of_mem hnodup hin]
    rfl
  · refine Or.inr ⟨hin, ?_⟩
    rw [List.map_eq_nil_iff, List.filter_eq_nil_iff]
    intro other hother heq
    exact hin (of_decide_eq_true heq ▸ hother)

theorem successors_nesting_of_not_linked (h : PartialLinkage settings declarations links g)
    {name : TypeName} (hname : ∀ p ∈ links, p.1.name ≠ name) :
    g.nesting.successors name = [] := by
  rw [Graph.successors_nesting_eq, List.map_eq_nil_iff, h.filter_edges, List.flatMap_eq_nil_iff]
  · intro q hq
    rw [Links.filter_enclosure, if_neg (hname q hq)]
  · intro other _
    exact decide_eq_false fun hall => EdgeKind.noConfusion hall.1

theorem successors_nesting_of_not_declared (h : PartialLinkage settings declarations links g)
    {name : TypeName} (hname : name ∉ declarations.map (·.name)) :
    g.nesting.successors name = [] := by
  refine h.successors_nesting_of_not_linked ?_
  rintro p hp rfl
  exact hname (List.mem_map_of_mem (h.mem_declarations hp))

/-- At most one type lies directly around a type. -/
theorem length_successors_nesting_le (h : PartialLinkage settings declarations links g)
    (name : TypeName) : (g.nesting.successors name).length ≤ 1 := by
  by_cases hname : ∃ p ∈ links, p.1.name = name
  · obtain ⟨⟨d, k⟩, hk, rfl⟩ := hname
    rw [h.successors_nesting hk]
    exact Option.length_toList_le
  · rw [h.successors_nesting_of_not_linked fun p hp heq => hname ⟨p, hp, heq⟩]
    exact Nat.zero_le 1

theorem targets_implementation_of_not_declared (h : PartialLinkage settings declarations links g)
    {name : TypeName} (hname : name ∉ declarations.map (·.name)) :
    g.targets name .implementation = [] := by
  rw [Graph.targets_eq_filter_source]
  rcases h.filter_source_of_not_declared hname with ⟨-, heq⟩ | ⟨-, heq⟩ <;> rw [heq]
  · rfl
  · rfl

/-- A name that nobody declares leads to the root, if it stands for an extended external type. -/
theorem targets_extension_of_not_declared (h : PartialLinkage settings declarations links g)
    {name : TypeName} (hname : name ∉ declarations.map (·.name)) :
    g.targets name .extension = [] ∨
      settings.Foreign declarations name ∧ Extended (ownEdges links) name ∧
        g.targets name .extension = [g.root] := by
  rw [Graph.targets_eq_filter_source]
  rcases h.filter_source_of_not_declared hname with ⟨⟨hforeign, hext⟩, heq⟩ | ⟨-, heq⟩ <;> rw [heq]
  · rw [h.linked.root]
    exact Or.inr ⟨hforeign, hext, rfl⟩
  · exact Or.inl rfl

theorem targets_root (h : PartialLinkage settings declarations links g) (kind : EdgeKind)
    (hkind : kind.isInheritance = true) : g.targets g.root kind = [] := by
  cases kind with
  | extension =>
    rcases h.targets_extension_of_not_declared h.root_not_mem with heq | ⟨hforeign, -⟩
    · exact heq
    · exact absurd hforeign h.linked.not_foreign_root
  | implementation => exact h.targets_implementation_of_not_declared h.root_not_mem
  | enclosure => exact nomatch hkind

theorem not_adj_root (h : PartialLinkage settings declarations links g) (b : TypeName) :
    ¬ g.inheritance.Adj g.root b := by
  rw [Graph.adj_inheritance, h.targets_root .extension rfl, h.targets_root .implementation rfl]
  simp

theorem adj_of_not_declared (h : PartialLinkage settings declarations links g) {a b : TypeName}
    (ha : a ∉ declarations.map (·.name)) (hab : g.inheritance.Adj a b) : b = g.root := by
  rw [Graph.adj_inheritance, h.targets_implementation_of_not_declared ha] at hab
  rcases hab with hab | hab
  · rcases h.targets_extension_of_not_declared ha with heq | ⟨-, -, heq⟩
    · rw [heq] at hab
      exact absurd hab List.not_mem_nil
    · rw [heq] at hab
      exact List.mem_singleton.1 hab
  · exact absurd hab List.not_mem_nil

end PartialLinkage

end Lineage
