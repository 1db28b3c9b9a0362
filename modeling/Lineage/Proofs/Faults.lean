import Lineage.Proofs.Built
import Lineage.Proofs.CycleSearch

/-!
# Faults of linked graphs

What the checks of a linked graph find. Types on a cycle are declared, so that a search from the
declared types misses none: building fails with an inheritance cycle exactly if some type is its own
supertype, and the path in the error is such a cycle (`inheritanceCycle_iff`). No linked type has
two superclasses (`Linkage.multipleInheritance?_eq_none`).
-/

namespace Lineage

namespace Graph

/-- One type names another as its superclass or as an interface. -/
def DirectSupertype (g : Graph) (sub super : TypeName) : Prop :=
  ∃ e ∈ g.edges, e.kind ≠ .enclosure ∧ e.source = sub ∧ e.target = super

theorem adj_inheritance_iff {g : Graph} {a b : TypeName} :
    g.inheritance.Adj a b ↔ g.DirectSupertype a b := by
  unfold inheritance Digraph.Adj DirectSupertype
  simp only [List.mem_map, List.mem_filter, Prod.mk.injEq, and_assoc]
  refine exists_congr fun e => and_congr_right fun _ => and_congr_left fun _ => ?_
  cases e.kind <;> simp [EdgeKind.isInheritance]

/-! ## Errors of the checks -/

variable {g : Graph} {error : StructureError}

theorem inheritanceCycle?_eq_some_iff : g.inheritanceCycle? = some error ↔
    ∃ path, g.inheritance.findCycle g.typeNames = some path ∧ error = .inheritanceCycle path := by
  unfold inheritanceCycle?
  rw [Option.map_eq_some_iff]
  exact exists_congr fun path => and_congr_right fun _ => eq_comm

theorem exists_of_multipleInheritance? (h : g.multipleInheritance? = some error) :
    ∃ name, error = .multipleInheritance name := by
  obtain ⟨name, -, rfl⟩ := Option.map_eq_some_iff.1 h
  exact ⟨name, rfl⟩

theorem exists_of_kindMismatch? (h : g.kindMismatch? = some error) :
    ∃ name supertype role, error = .kindMismatch name supertype role := by
  obtain ⟨name, -, hname⟩ := List.exists_of_findSome?_eq_some h
  obtain ⟨⟨kind, role⟩, -, hrole⟩ := List.exists_of_findSome?_eq_some hname
  obtain ⟨supertype, -, rfl⟩ := Option.map_eq_some_iff.1 hrole
  exact ⟨name, supertype, role, rfl⟩

theorem exists_of_enclosingCycle? (h : g.enclosingCycle? = some error) :
    ∃ path, error = .enclosingCycle path := by
  obtain ⟨path, -, rfl⟩ := Option.map_eq_some_iff.1 h
  exact ⟨path, rfl⟩

theorem cases_of_fault? (h : g.fault? = some error) :
    g.inheritanceCycle? = some error ∨ g.multipleInheritance? = some error ∨
      g.kindMismatch? = some error ∨ g.enclosingCycle? = some error := by
  unfold fault? at h
  refine (Option.or_eq_some_iff.1 h).imp_right fun h => ?_
  refine (Option.or_eq_some_iff.1 h.2).imp_right fun h => ?_
  exact (Option.or_eq_some_iff.1 h.2).imp_right And.right

/-- References have been resolved before the checks begin. -/
theorem fault?_ne_unresolved (name source : TypeName) :
    g.fault? ≠ some (.unresolved name source) := by
  intro h
  rcases cases_of_fault? h with h | h | h | h
  · obtain ⟨_, -, heq⟩ := inheritanceCycle?_eq_some_iff.1 h
    exact nomatch heq
  · obtain ⟨_, heq⟩ := exists_of_multipleInheritance? h
    exact nomatch heq
  · obtain ⟨_, _, _, heq⟩ := exists_of_kindMismatch? h
    exact nomatch heq
  · obtain ⟨_, heq⟩ := exists_of_enclosingCycle? h
    exact nomatch heq

/-- The check for cycles of inheritance comes first, and no other check finds any. -/
theorem fault?_eq_inheritanceCycle_iff {path : List TypeName} :
    g.fault? = some (.inheritanceCycle path) ↔ g.inheritance.findCycle g.typeNames = some path := by
  constructor
  · intro h
    rcases cases_of_fault? h with h | h | h | h
    · obtain ⟨path', hpath, heq⟩ := inheritanceCycle?_eq_some_iff.1 h
      obtain rfl := StructureError.inheritanceCycle.inj heq
      exact hpath
    · obtain ⟨_, heq⟩ := exists_of_multipleInheritance? h
      exact nomatch heq
    · obtain ⟨_, _, _, heq⟩ := exists_of_kindMismatch? h
      exact nomatch heq
    · obtain ⟨_, heq⟩ := exists_of_enclosingCycle? h
      exact nomatch heq
  · intro hpath
    unfold fault?
    rw [inheritanceCycle?_eq_some_iff.2 ⟨path, hpath, rfl⟩, Option.some_or]

end Graph

/-! ## Checks of linked graphs -/

/-- Where there is one entry at most, the first entry is all there is. -/
theorem head?_eq_some_iff_mem {α : Type} {xs : List α} (h : xs.length ≤ 1) {x : α} :
    xs.head? = some x ↔ x ∈ xs := by
  cases xs with
  | nil => simp
  | cons first rest =>
    rw [List.length_cons] at h
    obtain rfl : rest = [] := List.eq_nil_of_length_eq_zero (by omega)
    rw [List.head?_cons, List.mem_singleton, Option.some.injEq, eq_comm]

namespace Linkage

variable {settings : Resolver} {declarations : List Declaration}
  {links : List (Declaration × Links)} {g : Graph}

theorem mem_typeNames_of_inheritance (h : Linkage settings declarations links g) {a : TypeName}
    (ha : Relation.TransGen g.inheritance.Adj a a) : a ∈ g.typeNames := by
  by_contra hnot
  rw [h.linked.typeNames_eq] at hnot
  obtain ⟨b, hab, hba⟩ := Relation.TransGen.head'_iff.1 ha
  -- the only way on from other types is to the root, which leads nowhere
  obtain rfl := h.adj_of_not_declared hnot hab
  rcases Relation.ReflTransGen.cases_head hba with rfl | ⟨c, hrootc, -⟩
  · exact h.not_adj_root _ hab
  · exact h.not_adj_root c hrootc

theorem mem_typeNames_of_nesting (h : Linkage settings declarations links g) {a : TypeName}
    (ha : Relation.TransGen g.nesting.Adj a a) : a ∈ g.typeNames := by
  by_contra hnot
  rw [h.linked.typeNames_eq] at hnot
  obtain ⟨b, hab, -⟩ := Relation.TransGen.head'_iff.1 ha
  rw [← Digraph.mem_successors, h.successors_nesting_of_not_declared hnot] at hab
  exact List.not_mem_nil hab

theorem inheritanceCycle?_isSome_iff (h : Linkage settings declarations links g) :
    g.inheritanceCycle?.isSome ↔ g.inheritance.Cyclic := by
  unfold Graph.inheritanceCycle?
  rw [Option.isSome_map]
  exact Digraph.isSome_findCycle_iff fun a ha => h.mem_typeNames_of_inheritance ha

theorem enclosingCycle?_isSome_iff (h : Linkage settings declarations links g) :
    g.enclosingCycle?.isSome ↔ g.nesting.Cyclic := by
  unfold Graph.enclosingCycle?
  rw [Option.isSome_map]
  exact Digraph.isSome_findCycle_iff fun a ha => h.mem_typeNames_of_nesting ha

theorem mem_of_findCycle (h : Linkage settings declarations links g) {path : List TypeName}
    (hpath : g.inheritance.findCycle g.typeNames = some path) {a : TypeName} (ha : a ∈ path) :
    a ∈ declarations.map (·.name) :=
  h.linked.typeNames_eq ▸
    h.mem_typeNames_of_inheritance ((Digraph.isCycle_of_findCycle hpath).transGen ha)

theorem length_targets_extension_le (h : Linkage settings declarations links g) (name : TypeName) :
    (g.targets name .extension).length ≤ 1 := by
  by_cases hname : name ∈ declarations.map (·.name)
  · obtain ⟨d, k, hk, rfl⟩ := h.exists_of_mem_names hname
    rw [h.targets_extension hk]
    exact Option.length_toList_le
  · rcases h.targets_extension_of_not_declared hname with heq | ⟨-, -, heq⟩ <;> rw [heq]
    · exact Nat.zero_le 1
    · exact le_rfl

theorem superclass?_eq_some_iff (h : Linkage settings declarations links g)
    {name super : TypeName} :
    g.superclass? name = some super ↔ super ∈ g.targets name .extension := by
  rw [Graph.superclass?_eq_head?, head?_eq_some_iff_mem (h.length_targets_extension_le name)]

theorem multipleInheritance?_eq_none (h : Linkage settings declarations links g) :
    g.multipleInheritance? = none := by
  unfold Graph.multipleInheritance?
  rw [Option.map_eq_none_iff, List.find?_eq_none]
  intro name _
  rw [decide_eq_true_eq, not_lt]
  exact h.length_targets_extension_le name

theorem fault?_ne_multipleInheritance (h : Linkage settings declarations links g)
    (name : TypeName) : g.fault? ≠ some (.multipleInheritance name) := by
  intro hfault
  rcases Graph.cases_of_fault? hfault with hcycle | hmultiple | hkind | henclosing
  · obtain ⟨_, -, heq⟩ := Graph.inheritanceCycle?_eq_some_iff.1 hcycle
    exact nomatch heq
  · exact nomatch h.multipleInheritance?_eq_none.symm.trans hmultiple
  · obtain ⟨_, _, _, heq⟩ := Graph.exists_of_kindMismatch? hkind
    exact nomatch heq
  · obtain ⟨_, heq⟩ := Graph.exists_of_enclosingCycle? henclosing
    exact nomatch heq

end Linkage

namespace Hierarchy.Built

variable {settings : Resolver} {declarations : List Declaration}
  {links : List (Declaration × Links)} {h : Hierarchy}

/-- No type of a hierarchy is its own supertype. -/
theorem acyclic_inheritance (hb : Built settings declarations links h) :
    ¬ h.graph.inheritance.Cyclic := by
  have hsound := hb.sound
  unfold Graph.fault? at hsound
  rw [← hb.linkage.inheritanceCycle?_isSome_iff, (Option.or_eq_none_iff.1 hsound).1]
  exact Bool.false_ne_true

theorem acyclic_nesting (hb : Built settings declarations links h) :
    ¬ h.graph.nesting.Cyclic := by
  have hsound := hb.sound
  unfold Graph.fault? at hsound
  rw [Option.or_eq_none_iff, Option.or_eq_none_iff, Option.or_eq_none_iff] at hsound
  rw [← hb.linkage.enclosingCycle?_isSome_iff, hsound.2.2.2]
  exact Bool.false_ne_true

end Hierarchy.Built

/-! ## Cycles of inheritance -/

/-- Once references are linked, the check for cycles cannot take turns for ever, it fails exactly if
some type is its own supertype, and the path in the error is a cycle of distinct declared types. -/
theorem inheritanceCycle_iff {settings : Resolver} {declarations : List Declaration} {l : Linking}
    (hrun : Linking.run settings declarations = .ok l) :
    (WellFounded fun t s => l.graph.inheritance.Turn s t) ∧
    ((∃ path, (Hierarchy.build settings declarations).value = .error (.inheritanceCycle path)) ↔
      ∃ a, Relation.TransGen l.graph.DirectSupertype a a) ∧
    ∀ path, (Hierarchy.build settings declarations).value = .error (.inheritanceCycle path) →
      path.Nodup ∧ (∀ a ∈ path, a ∈ declarations.map (·.name)) ∧
      path.IsChain l.graph.DirectSupertype ∧
      ∃ first last, path.head? = some first ∧ path.getLast? = some last ∧
        l.graph.DirectSupertype last first := by
  obtain ⟨links, hlinks⟩ := linkage_of_run hrun
  have hadj : l.graph.inheritance.Adj = l.graph.DirectSupertype := by
    funext a b
    exact propext Graph.adj_inheritance_iff
  have hvalue : ∀ path,
      (Hierarchy.build settings declarations).value = .error (.inheritanceCycle path) ↔
        l.graph.inheritance.findCycle l.graph.typeNames = some path := by
    intro path
    rw [← Graph.fault?_eq_inheritanceCycle_iff, Hierarchy.value_build, hrun]
    simp only []
    cases l.graph.fault? <;> simp
  refine ⟨Digraph.wellFounded_turn _, ?_, fun path hpath => ?_⟩
  · rw [← hadj, exists_congr hvalue, ← Option.isSome_iff_exists]
    exact Digraph.isSome_findCycle_iff fun a ha => hlinks.mem_typeNames_of_inheritance ha
  · rw [hvalue] at hpath
    have hcycle := Digraph.isCycle_of_findCycle hpath
    obtain ⟨first, hfirst, last, hlast, hback⟩ := hcycle.closes
    rw [← hadj]
    exact ⟨hcycle.nodup, fun a ha => hlinks.mem_of_findCycle hpath ha, hcycle.chain,
      first, last, hfirst, hlast, hback⟩

/-- A class over two interfaces that name each other. -/
def overCycle : List Declaration :=
  [{ name := "app.T", kind := .concreteClass, interfaces := ["app.I"] },
    { name := "app.I", kind := .interface, interfaces := ["app.J"] },
    { name := "app.J", kind := .interface, interfaces := ["I"] }]

theorem inheritanceCycle_overCycle :
    ∃ l, Linking.run .closed overCycle = .ok l ∧ ∃ path,
      (Hierarchy.build .closed overCycle).value = .error (.inheritanceCycle path) ∧
      path.Nodup ∧ path.IsChain l.graph.DirectSupertype := by
  refine ⟨_, rfl, ?_⟩
  obtain ⟨-, hiff, hpaths⟩ := inheritanceCycle_iff
    (show Linking.run .closed overCycle = .ok _ from rfl)
  obtain ⟨path, hpath⟩ := hiff.2 ⟨"app.I", .tail (b := "app.J")
    (.single ⟨⟨"app.I", .implementation, "app.J"⟩, by decide, by decide, rfl, rfl⟩)
    ⟨⟨"app.J", .implementation, "app.I"⟩, by decide, by decide, rfl, rfl⟩⟩
  obtain ⟨hnodup, -, hchain, -⟩ := hpaths path hpath
  exact ⟨path, hpath, hnodup, hchain⟩

end Lineage
