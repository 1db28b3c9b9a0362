import Lineage.Proofs.Subtyping

/-!
# The order of subtypes

A subtype query says yes exactly where a chain of direct supertypes leads from one type to the other
(`Hierarchy.isSubtypeOf_eq_true_iff`). Since no type of a hierarchy is its own supertype, this is a
partial order on the types, whatever names they are asked for by (`isSubtypeOf_order`).
-/

namespace Lineage

theorem Digraph.Reaches.antisymm {α : Type} {g : Digraph α} (hacyclic : ¬ g.Cyclic) {a b : α}
    (hab : g.Reaches a b) (hba : g.Reaches b a) : a = b := by
  rcases Relation.reflTransGen_iff_eq_or_transGen.1 hab with heq | htrans
  · exact heq.symm
  · exact absurd ⟨a, htrans.trans_left hba⟩ hacyclic

namespace Graph

theorem reaches_inheritance_iff {g : Graph} {a b : TypeName} :
    g.inheritance.Reaches a b ↔ Relation.ReflTransGen g.DirectSupertype a b := by
  have hadj : g.inheritance.Adj = g.DirectSupertype := by
    funext a b
    exact propext adj_inheritance_iff
  unfold Digraph.Reaches
  rw [hadj]

end Graph

namespace Hierarchy

variable {h : Hierarchy}

theorem isSubtypeOf_eq_true_iff {sub super : TypeName} :
    h.isSubtypeOf sub super = .ok true ↔ ∃ a b, h.canonical sub = .ok a ∧
      h.canonical super = .ok b ∧ h.graph.inheritance.Reaches a b := by
  constructor
  · intro hyes
    cases ha : h.canonical sub with
    | error e =>
      unfold isSubtypeOf supertypesOf at hyes
      rw [ha] at hyes
      exact nomatch hyes
    | ok a =>
      cases hb : h.canonical super with
      | error e =>
        unfold isSubtypeOf supertypesOf at hyes
        rw [ha, hb] at hyes
        exact nomatch hyes
      | ok b =>
        obtain ⟨answer, hanswer, hiff⟩ := isSubtypeOf_of_canonical ha hb
        refine ⟨a, b, rfl, rfl, hiff.1 ?_⟩
        exact Except.ok.inj (hanswer.symm.trans hyes)
  · rintro ⟨a, b, ha, hb, hreaches⟩
    obtain ⟨answer, hanswer, hiff⟩ := isSubtypeOf_of_canonical ha hb
    rw [hanswer, hiff.2 hreaches]

/-- Two names of one type are the same, unless both are names of the root. -/
theorem Built.eq_of_canonical {settings : Resolver} {declarations : List Declaration}
    {links : List (Declaration × Links)} (hb : Built settings declarations links h)
    {a b type : TypeName} (ha : h.canonical a = .ok type) (hb' : h.canonical b = .ok type) :
    a = b ∨ settings.isRoot a = true ∧ settings.isRoot b = true := by
  have hnames : ∀ {name : TypeName}, h.canonical name = .ok type →
      type = if settings.isRoot name then h.rootName else name := by
    intro name hname
    exact Except.ok.inj (hname.symm.trans (hb.canonical_of_contains (contains_of_canonical hname)))
  have hroot : settings.isRoot h.rootName = true := by
    rw [show h.rootName = settings.rootType from hb.linkage.linked.root]
    exact settings.isRoot_rootType
  have heq := (hnames ha).symm.trans (hnames hb')
  by_cases hra : settings.isRoot a = true <;> by_cases hrb : settings.isRoot b = true
  · exact Or.inr ⟨hra, hrb⟩
  · rw [if_pos hra, if_neg hrb] at heq
    exact absurd (heq ▸ hroot) hrb
  · rw [if_neg hra, if_pos hrb] at heq
    exact absurd (heq ▸ hroot) hra
  · rw [if_neg hra, if_neg hrb] at heq
    exact Or.inl heq

end Hierarchy

/-- All names of a hierarchy can be asked for, and one is a subtype of another exactly if a chain of
direct supertypes leads from its type to that of the other. This is a partial order, in which names
of the root count as one. -/
theorem isSubtypeOf_order {settings : Resolver} {declarations : List Declaration} {h : Hierarchy}
    (hbuild : (Hierarchy.build settings declarations).value = .ok h) :
    (∀ a b, h.contains a = true → h.contains b = true → ∃ answer,
      h.isSubtypeOf a b = .ok answer ∧
      (answer = true ↔ Relation.ReflTransGen h.graph.DirectSupertype
        (if settings.isRoot a then h.rootName else a)
        (if settings.isRoot b then h.rootName else b))) ∧
    (∀ a, h.contains a = true → h.isSubtypeOf a a = .ok true) ∧
    (∀ a b c, h.isSubtypeOf a b = .ok true → h.isSubtypeOf b c = .ok true →
      h.isSubtypeOf a c = .ok true) ∧
    ∀ a b, h.isSubtypeOf a b = .ok true → h.isSubtypeOf b a = .ok true →
      a = b ∨ settings.isRoot a = true ∧ settings.isRoot b = true := by
  obtain ⟨links, hb⟩ := Hierarchy.built_of_build hbuild
  refine ⟨fun a b ha hb' => ?_, fun a ha => ?_, fun a b c hab hbc => ?_, fun a b hab hba => ?_⟩
  · rw [← Graph.reaches_inheritance_iff]
    exact Hierarchy.isSubtypeOf_of_canonical (hb.canonical_of_contains ha)
      (hb.canonical_of_contains hb')
  · have htype := hb.canonical_of_contains ha
    exact Hierarchy.isSubtypeOf_eq_true_iff.2 ⟨_, _, htype, htype, .refl _⟩
  · obtain ⟨x, y, hx, hy, hxy⟩ := Hierarchy.isSubtypeOf_eq_true_iff.1 hab
    obtain ⟨y', z, hy', hz, hyz⟩ := Hierarchy.isSubtypeOf_eq_true_iff.1 hbc
    obtain rfl : y = y' := Except.ok.inj (hy.symm.trans hy')
    exact Hierarchy.isSubtypeOf_eq_true_iff.2 ⟨x, z, hx, hz, hxy.trans hyz⟩
  · obtain ⟨x, y, hx, hy, hxy⟩ := Hierarchy.isSubtypeOf_eq_true_iff.1 hab
    obtain ⟨y', x', hy', hx', hyx⟩ := Hierarchy.isSubtypeOf_eq_true_iff.1 hba
    obtain rfl : x = x' := Except.ok.inj (hx.symm.trans hx')
    obtain rfl : y = y' := Except.ok.inj (hy.symm.trans hy')
    obtain rfl := hxy.antisymm hb.acyclic_inheritance hyx
    exact hb.eq_of_canonical hx hy

/-- A class below an external type and the root, which is therefore not below the class. -/
theorem isSubtypeOf_order_lateClass :
    ∃ h, (Hierarchy.build {} lateClass).value = .ok h ∧
      h.isSubtypeOf "app.Job" "Runnable" = .ok true ∧
      h.isSubtypeOf "Runnable" "java.lang.Object" = .ok true ∧
      h.isSubtypeOf "app.Job" "java.lang.Object" = .ok true ∧
      h.isSubtypeOf "java.lang.Object" "app.Job" ≠ .ok true := by
  obtain ⟨-, -, htrans, hantisymm⟩ := isSubtypeOf_order build_lateClass
  refine ⟨⟨lateGraph, lateGraph.ledger.obligations⟩, build_lateClass, ?_⟩
  have hjob : Hierarchy.isSubtypeOf ⟨lateGraph, lateGraph.ledger.obligations⟩
      "app.Job" "Runnable" = .ok true := by decide +kernel
  have hrunnable : Hierarchy.isSubtypeOf ⟨lateGraph, lateGraph.ledger.obligations⟩
      "Runnable" "java.lang.Object" = .ok true := by decide +kernel
  have hroot := htrans _ _ _ hjob hrunnable
  exact ⟨hjob, hrunnable, hroot, fun hback => absurd (hantisymm _ _ hroot hback) (by decide)⟩

end Lineage
