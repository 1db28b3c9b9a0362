import Lineage.Proofs.Outline
import Lineage.Proofs.SameInheritance

/-!
# One more method

What a class owes when a declared type gains a method. Nothing else changes: no reference is linked
otherwise and no check fails that did not (`Linking.run_of_outline_eq`). Classes that have the type
neither among their supertypes nor for themselves owe the same. For the others an abstract method
can only add to what is owed, a body can only take from it, and only the signature of the method is
affected (`owedBy_gains`). The reason is that the rules for one signature look at its abstract
declarations from one side and at its bodies from the other (`owes_mono`).
-/

namespace Lineage

/-- Two declarations that differ in one method that the second has in addition, wherever it stands
among the others. -/
structure Declaration.Gains (m : Method) (d d' : Declaration) : Prop where
  outline : d.outline = d'.outline
  methods : d'.methods.Perm (m :: d.methods)

/-- A declaration demands a method at least as much as another one does: it is abstract where it is
there, and has a body only where it has one there. -/
structure Declaration.Demands (s : Signature) (d d' : Declaration) : Prop where
  abstracts : s ∈ d.abstracts → s ∈ d'.abstracts
  concretes : s ∈ d'.concretes → s ∈ d.concretes

namespace Declaration

theorem Demands.refl (s : Signature) (d : Declaration) : Demands s d d :=
  ⟨id, id⟩

namespace Gains

variable {m : Method} {d d' : Declaration} (h : d.Gains m d') {s : Signature}

include h

theorem name_eq : d.name = d'.name := by
  rw [← d.name_outline, h.outline, d'.name_outline]

theorem kind_eq : d.kind = d'.kind := by
  rw [← d.kind_outline, h.outline, d'.kind_outline]

theorem mem_abstracts_iff : s ∈ d'.abstracts ↔
    (m.isAbstract = true ∧ m.signature = s) ∨ s ∈ d.abstracts := by
  rw [mem_abstracts, mem_abstracts]
  simp only [h.methods.mem_iff, List.mem_cons, exists_eq_or_imp]

theorem mem_concretes_iff : s ∈ d'.concretes ↔
    (m.isAbstract = false ∧ m.signature = s) ∨ s ∈ d.concretes := by
  rw [mem_concretes, mem_concretes]
  simp only [h.methods.mem_iff, List.mem_cons, exists_eq_or_imp]

theorem demands (hm : s ≠ m.signature ∨ m.isAbstract = true) : Demands s d d' where
  abstracts hs := h.mem_abstracts_iff.2 (Or.inr hs)
  concretes hs := by
    refine (h.mem_concretes_iff.1 hs).resolve_left fun ⟨hbody, heq⟩ => ?_
    rcases hm with hne | habstract
    · exact hne heq.symm
    · exact nomatch hbody.symm.trans habstract

theorem demands_symm (hm : s ≠ m.signature ∨ m.isAbstract = false) : Demands s d' d where
  abstracts hs := by
    refine (h.mem_abstracts_iff.1 hs).resolve_left fun ⟨habstract, heq⟩ => ?_
    rcases hm with hne | hbody
    · exact hne heq.symm
    · exact nomatch hbody.symm.trans habstract
  concretes hs := h.mem_concretes_iff.2 (Or.inr hs)

end Gains

end Declaration

/-! ## The rules are monotone -/

section Rules

open Declaration (Demands)

variable {s : Signature} {chain chain' interfaces interfaces' : List Declaration}

theorem nearestAbstract_mono (hchain : List.Forall₂ (Demands s) chain chain')
    (h : NearestAbstract s chain) : NearestAbstract s chain' := by
  induction hchain with
  | nil => exact h
  | cons hc _ ih =>
    rw [nearestAbstract_cons] at h ⊢
    exact h.imp hc.abstracts fun ⟨hbody, hrest⟩ => ⟨fun hs => hbody (hc.concretes hs), ih hrest⟩

/-- A method that is abstract somewhere in a chain, and has a body nowhere, is abstract nearest. -/
theorem nearestAbstract_of_no_body (hbody : ∀ c ∈ chain, s ∉ c.concretes)
    (habstract : ∃ c ∈ chain, s ∈ c.abstracts) : NearestAbstract s chain := by
  induction chain with
  | nil =>
    obtain ⟨c, hc, -⟩ := habstract
    exact absurd hc List.not_mem_nil
  | cons d chain ih =>
    obtain ⟨hd, hrest⟩ := List.forall_mem_cons.1 hbody
    obtain ⟨c, hc, hs⟩ := habstract
    rw [nearestAbstract_cons]
    rcases List.mem_cons.1 hc with rfl | hc
    · exact Or.inl hs
    · exact Or.inr ⟨hd, ih hrest ⟨c, hc, hs⟩⟩

/-- A method that is owed stays so if all types demand it at least as much. One that interfaces
alone declared may become abstract in the chain, where the other rule takes over. -/
theorem owes_mono (hchain : List.Forall₂ (Demands s) chain chain')
    (hinterfaces : List.Forall₂ (Demands s) interfaces interfaces')
    (h : NearestAbstract s chain ∨ DemandedByInterface s chain interfaces) :
    NearestAbstract s chain' ∨ DemandedByInterface s chain' interfaces' := by
  rcases h with hnearest | ⟨hnone, ⟨i, hi, hs⟩, hbodies⟩
  · exact Or.inl (nearestAbstract_mono hchain hnearest)
  · have hchainBodies : ∀ c' ∈ chain', s ∉ c'.concretes := by
      intro c' hc' hs'
      obtain ⟨c, hc, hsame⟩ := exists_of_forall₂ hchain hc'
      exact (hnone c hc).2 (hsame.concretes hs')
    by_cases habstract : ∃ c' ∈ chain', s ∈ c'.abstracts
    · exact Or.inl (nearestAbstract_of_no_body hchainBodies habstract)
    · refine Or.inr ⟨fun c' hc' => ⟨fun hs' => habstract ⟨c', hc', hs'⟩, hchainBodies c' hc'⟩,
        ?_, fun i' hi' hs' => ?_⟩
      · obtain ⟨i', hi', hsame⟩ := exists_of_forall₂ hinterfaces.flip hi
        exact ⟨i', hi', hsame.abstracts hs⟩
      · obtain ⟨i, hi, hsame⟩ := exists_of_forall₂ hinterfaces hi'
        exact hbodies i hi (hsame.concretes hs')

end Rules

/-- What a class owes, its counterpart does if all types demand it at least as much. -/
theorem SameInheritance.mem_owed_mono {same : Declaration → Declaration → Prop} {g g' : Graph}
    (h : SameInheritance same g g') (hacyclic : ¬ g.inheritance.Cyclic) {d d' : Declaration}
    (hd : same d d') {s : Signature} (hdemands : ∀ c c', same c c' → Declaration.Demands s c c')
    (hs : s ∈ g.owed (g.inherited d)) : s ∈ g'.owed (g'.inherited d') := by
  rw [(inherits_inherited g d).mem_owed] at hs
  rw [(inherits_inherited g' d').mem_owed, ← h.interfaces_inherited hacyclic hd]
  exact owes_mono ((h.forall₂_declaredChain hacyclic hd).imp hdemands)
    ((h.forall₂_filterMap_declared? _).imp hdemands) hs

/-! ## Declarations with one method added -/

/-- Where one declaration is replaced by another, what stands in the place of each. -/
def Declaration.Replaced (d d' c c' : Declaration) : Prop :=
  c = c' ∨ c = d ∧ c' = d'

section Gains

open Declaration (Gains Replaced)

variable {settings : Resolver} {m : Method} {d d' : Declaration} (hmore : d.Gains m d')

include hmore

theorem map_outline_of_gains (before after : List Declaration) :
    (before ++ d :: after).map Declaration.outline =
      (before ++ d' :: after).map Declaration.outline := by
  rw [List.map_append, List.map_append, List.map_cons, List.map_cons, hmore.outline]

theorem sameInheritance_of_gains {before after : List Declaration} {g g' : Graph}
    (hdeclared : g.declared = before ++ d :: after)
    (hdeclared' : g'.declared = before ++ d' :: after) (houtline : g.outline = g'.outline) :
    SameInheritance (Replaced d d') g g' where
  name_eq c c' hc := by
    rcases hc with rfl | ⟨rfl, rfl⟩
    · rfl
    · exact hmore.name_eq
  kind_eq c c' hc := by
    rcases hc with rfl | ⟨rfl, rfl⟩
    · rfl
    · exact hmore.kind_eq
  root := (Graph.eq_of_outline_eq houtline).1
  aliases := (Graph.eq_of_outline_eq houtline).2.1
  declared := by
    have hsame : ∀ cs : List Declaration, List.Forall₂ (Replaced d d') cs cs := fun cs =>
      List.forall₂_same.2 fun c _ => Or.inl rfl
    rw [hdeclared, hdeclared']
    exact List.rel_append (hsame before) (.cons (Or.inr ⟨rfl, rfl⟩) (hsame after))
  externals := (Graph.eq_of_outline_eq houtline).2.2.1
  edges := by rw [(Graph.eq_of_outline_eq houtline).2.2.2]

/-- Building fails with the same error for both, or succeeds with the same inheritance. -/
theorem build_of_gains (before after : List Declaration) :
    (∃ error, (Hierarchy.build settings (before ++ d :: after)).value = .error error ∧
      (Hierarchy.build settings (before ++ d' :: after)).value = .error error) ∨
    ∃ h h', (Hierarchy.build settings (before ++ d :: after)).value = .ok h ∧
      (Hierarchy.build settings (before ++ d' :: after)).value = .ok h' ∧
      SameInheritance (Replaced d d') h.graph h'.graph := by
  rcases Linking.run_of_outline_eq settings (map_outline_of_gains hmore before after) with
    ⟨f, hrun, hrun'⟩ | ⟨l, l', hrun, hrun', houtline⟩
  · refine Or.inl ⟨f.error, ?_, ?_⟩
    · rw [Hierarchy.value_build, hrun]
    · rw [Hierarchy.value_build, hrun']
  · obtain ⟨links, hlinks⟩ := linkage_of_run hrun
    obtain ⟨links', hlinks'⟩ := linkage_of_run hrun'
    have hs := sameInheritance_of_gains hmore hlinks.linked.declared hlinks'.linked.declared
      houtline
    have hfault := hs.fault? (Graph.eq_of_outline_eq houtline).2.2.2
    cases herror : l.graph.fault? with
    | some error =>
      refine Or.inl ⟨error, ?_, ?_⟩
      · rw [Hierarchy.value_build, hrun]
        simp only [herror]
      · rw [Hierarchy.value_build, hrun']
        simp only [← hfault, herror]
    | none =>
      exact Or.inr ⟨_, _, Hierarchy.value_build_of_run hrun herror,
        Hierarchy.value_build_of_run hrun' (hfault.symm.trans herror), hs⟩

section Classes

variable {g g' : Graph} (hs : SameInheritance (Replaced d d') g g') {c c' : Declaration}
  (hc : Replaced d d' c c') {s : Signature}

include hs hc

omit hmore in
/-- A class owes the same if no type that counts is replaced. -/
theorem owed_eq_of_not_mem (hacyclic : ¬ g.inheritance.Cyclic)
    (hchain : d.name ∉ c.name :: g.ancestors c.name)
    (hinterfaces : d.name ∉ (g.inherited c).interfaces) :
    g.owed (g.inherited c) = g'.owed (g'.inherited c') := by
  refine hs.owed_eq hacyclic hc fun e e' he hmem => ?_
  rcases he with rfl | ⟨rfl, -⟩
  · exact ⟨rfl, rfl, rfl⟩
  · exact absurd hmem (not_or.2 ⟨hchain, hinterfaces⟩)

/-- What is owed before is owed afterwards, unless the method gained is its body. -/
theorem mem_owed_of_gains (hacyclic : ¬ g.inheritance.Cyclic)
    (hm : s ≠ m.signature ∨ m.isAbstract = true) (howed : s ∈ g.owed (g.inherited c)) :
    s ∈ g'.owed (g'.inherited c') := by
  refine hs.mem_owed_mono hacyclic hc (fun e e' he => ?_) howed
  rcases he with rfl | ⟨rfl, rfl⟩
  · exact .refl s e
  · exact hmore.demands hm

/-- What is owed afterwards was owed before, unless the method gained demands it. -/
theorem mem_owed_of_gains_symm (hacyclic : ¬ g'.inheritance.Cyclic)
    (hm : s ≠ m.signature ∨ m.isAbstract = false) (howed : s ∈ g'.owed (g'.inherited c')) :
    s ∈ g.owed (g.inherited c) := by
  refine hs.symm.mem_owed_mono hacyclic hc (fun e' e he => ?_) howed
  rcases he with rfl | ⟨rfl, rfl⟩
  · exact .refl s e
  · exact hmore.demands_symm hm

end Classes

/-- If a declaration gains a method, then building fails with the same error or succeeds in both
cases. Concrete classes owe the same, except that those with the type among themselves, their
ancestors and interfaces may come to owe the method, if it is abstract, or owe it no longer, if it
has a body. -/
theorem owedBy_gains (before after : List Declaration) :
    (∃ error, (Hierarchy.build settings (before ++ d :: after)).value = .error error ∧
      (Hierarchy.build settings (before ++ d' :: after)).value = .error error) ∨
    ∃ h h', (Hierarchy.build settings (before ++ d :: after)).value = .ok h ∧
      (Hierarchy.build settings (before ++ d' :: after)).value = .ok h' ∧
      ∀ c ∈ before ++ d :: after, c.kind = .concreteClass → ∃ owed owed' above interfaces,
        h.owedBy c.name = .ok owed ∧ h'.owedBy c.name = .ok owed' ∧
        h.ancestorsOf c.name = .ok above ∧ h.interfacesOf c.name = .ok interfaces ∧
        (d.name ∉ c.name :: above ++ interfaces → owed' = owed) ∧
        (∀ s, s ≠ m.signature → (s ∈ owed' ↔ s ∈ owed)) ∧
        (m.isAbstract = true → owed ⊆ owed') ∧ (m.isAbstract = false → owed' ⊆ owed) := by
  refine (build_of_gains hmore before after).imp_right ?_
  rintro ⟨h, h', hbuild, hbuild', hs⟩
  obtain ⟨_, hb⟩ := Hierarchy.built_of_build hbuild
  obtain ⟨_, hb'⟩ := Hierarchy.built_of_build hbuild'
  have hacyclic := hb.acyclic_inheritance
  have hacyclic' := hb'.acyclic_inheritance
  refine ⟨h, h', hbuild, hbuild', fun c hc hkind => ?_⟩
  -- the class may be the one that gains the method
  obtain ⟨c', hc', hsame⟩ := exists_of_forall₂ hs.declared.flip
    (hb.linkage.linked.declared.symm ▸ hc)
  rw [hb'.linkage.linked.declared] at hc'
  have htype := hb.canonical_of_declared hc
  refine ⟨h.graph.owed (h.graph.inherited c), h'.graph.owed (h'.graph.inherited c'),
    h.graph.ancestors c.name, h.graph.interfacesOfAll (c.name :: h.graph.ancestors c.name),
    hb.owedBy_of_concrete hc hkind, ?_, Hierarchy.ancestorsOf_of_canonical htype,
    Hierarchy.interfacesOf_of_canonical htype, fun hnot => ?_, fun s hne => ⟨?_, ?_⟩,
    fun habstract s => ?_, fun hbody s => ?_⟩
  · rw [hs.name_eq c c' hsame]
    exact hb'.owedBy_of_concrete hc' (hs.kind_eq c c' hsame ▸ hkind)
  · obtain ⟨hchain, hinterfaces⟩ := not_or.1 (mt List.mem_append.2 hnot)
    rw [← hb.mem_interfaces_inherited_iff] at hinterfaces
    exact (owed_eq_of_not_mem hs hsame hacyclic hchain hinterfaces).symm
  · exact mem_owed_of_gains_symm hmore hs hsame hacyclic' (Or.inl hne)
  · exact mem_owed_of_gains hmore hs hsame hacyclic (Or.inl hne)
  · exact mem_owed_of_gains hmore hs hsame hacyclic (Or.inr habstract)
  · exact mem_owed_of_gains_symm hmore hs hsame hacyclic' (Or.inr hbody)

end Gains

/-- A class under two interfaces of which one has a body for what the other demands, and under a
class with some methods. -/
def settledBy (methods : List Method) : List Declaration :=
  [{ name := "app.Task", kind := .interface, methods := [⟨⟨"rest", []⟩, true⟩] },
    { name := "app.Base", kind := .abstractClass, methods },
    { name := "app.Idle", kind := .interface, methods := [⟨⟨"rest", []⟩, false⟩] },
    { name := "app.Job", kind := .concreteClass, superclass := some "Base",
      interfaces := ["Task", "Idle"] }]

/-- An abstract method in the class above is no longer settled by the body in an interface. -/
theorem owedBy_gains_settledBy :
    (settledBy [])[1].Gains ⟨⟨"rest", []⟩, true⟩ (settledBy [⟨⟨"rest", []⟩, true⟩])[1] ∧
    ∃ h h' owed owed', (Hierarchy.build .closed (settledBy [])).value = .ok h ∧
      (Hierarchy.build .closed (settledBy [⟨⟨"rest", []⟩, true⟩])).value = .ok h' ∧
      h.owedBy "app.Job" = .ok owed ∧ h'.owedBy "app.Job" = .ok owed' ∧ owed ⊆ owed' ∧
      ⟨"rest", []⟩ ∉ owed ∧ ⟨"rest", []⟩ ∈ owed' := by
  have hmore : (settledBy [])[1].Gains ⟨⟨"rest", []⟩, true⟩
      (settledBy [⟨⟨"rest", []⟩, true⟩])[1] := ⟨rfl, .refl _⟩
  have hbuild := Hierarchy.value_build_of_run
    (show Linking.run .closed (settledBy []) = .ok _ from rfl) (by decide +kernel)
  have hbuild' := Hierarchy.value_build_of_run
    (show Linking.run .closed (settledBy [⟨⟨"rest", []⟩, true⟩]) = .ok _ from rfl)
    (by decide +kernel)
  refine ⟨hmore, ?_⟩
  rcases @owedBy_gains .closed _ _ _ hmore [(settledBy [])[0]] (settledBy []).tail.tail with
    ⟨error, herror, -⟩ | ⟨h, h', hok, hok', howes⟩
  · exact nomatch herror.symm.trans hbuild
  · obtain rfl := Except.ok.inj (hok.symm.trans hbuild)
    obtain rfl := Except.ok.inj (hok'.symm.trans hbuild')
    obtain ⟨owed, owed', _, _, howed, howed', -, -, -, -, hsub, -⟩ :=
      howes (settledBy [])[3] (by decide) rfl
    refine ⟨_, _, owed, owed', hbuild, hbuild', howed, howed', hsub rfl, ?_, ?_⟩
    · obtain rfl := Except.ok.inj (howed.symm.trans (show _ = Except.ok [] by decide +kernel))
      exact List.not_mem_nil
    · obtain rfl := Except.ok.inj
        (howed'.symm.trans (show _ = Except.ok [⟨"rest", []⟩] by decide +kernel))
      exact List.mem_singleton.2 rfl

end Lineage
