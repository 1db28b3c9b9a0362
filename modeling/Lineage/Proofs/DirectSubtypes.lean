import Lineage.Proofs.FirstOccurrences
import Lineage.Proofs.SubtypeOrder

/-!
# Direct subtypes

The types directly below a type are read off the edges that lead to it, its supertypes off the edges
that leave it. Both views agree: a type is directly below another exactly if it extends or
implements it (`Graph.mem_directSubtypes`), and below it exactly if it is the same type or is below
one of its direct subtypes (`subtypesOf_dual`).
-/

namespace Lineage

namespace Graph

variable {g : Graph} {a b c : TypeName}

/-- The types directly below a type, those that extend it first. -/
def directSubtypes (g : Graph) (name : TypeName) : List TypeName :=
  (g.sources name .extension ++ g.sources name .implementation).eraseDups

theorem mem_sources {kind : EdgeKind} : c ∈ g.sources b kind ↔ b ∈ g.targets c kind := by
  rw [mem_targets]
  simp only [sources, List.mem_map, List.mem_filter, Bool.and_eq_true, decide_eq_true_eq]
  constructor
  · rintro ⟨e, ⟨he, rfl, rfl⟩, rfl⟩
    exact he
  · intro he
    exact ⟨_, ⟨he, rfl, rfl⟩, rfl⟩

theorem mem_directSubtypes : c ∈ g.directSubtypes b ↔ g.inheritance.Adj c b := by
  rw [directSubtypes, List.mem_eraseDups, List.mem_append, mem_sources, mem_sources,
    adj_inheritance]

/-- A type is listed among those that extend another if it does, however else it is joined to it. -/
theorem directSubtypes_eq (g : Graph) (name : TypeName) :
    g.directSubtypes name = (g.sources name .extension).eraseDups ++
      (g.sources name .implementation).eraseDups.filter (· ∉ g.sources name .extension) := by
  rw [directSubtypes, List.eraseDups_append, List.removeAll, eraseDups_filter]
  simp only [List.elem_eq_mem, decide_not]

/-- The last step of a way upwards starts at a direct subtype. -/
theorem reaches_iff_directSubtypes : g.inheritance.Reaches a b ↔
    a = b ∨ ∃ c ∈ g.directSubtypes b, g.inheritance.Reaches a c := by
  unfold Digraph.Reaches
  rw [Relation.ReflTransGen.cases_tail_iff]
  refine or_congr eq_comm (exists_congr fun c => ?_)
  rw [mem_directSubtypes, and_comm]

end Graph

/-- What a list of the types directly below a type has to be. -/
structure Hierarchy.DirectlyBelow (h : Hierarchy) (type : TypeName) (below : List TypeName) :
    Prop where
  nodup : below.Nodup
  known : ∀ c ∈ below, h.contains c = true
  mem_iff : ∀ c, c ∈ below ↔
    h.superclassOf c = .ok (some type) ∨ type ∈ h.graph.targets c .implementation
  extending_first : ∃ extending implementing, below = extending ++ implementing ∧
    (∀ c ∈ extending, h.superclassOf c = .ok (some type)) ∧
    ∀ c ∈ implementing, h.superclassOf c ≠ .ok (some type)

namespace Hierarchy

theorem subtypesOf_of_canonical {h : Hierarchy} {name type : TypeName}
    (htype : h.canonical name = .ok type) : h.subtypesOf name = .ok (h.graph.directSubtypes type) := by
  unfold subtypesOf
  rw [htype]
  rfl

namespace Built

variable {settings : Resolver} {declarations : List Declaration}
  {links : List (Declaration × Links)} {h : Hierarchy} {type c : TypeName}

theorem canonical_of_mem_directSubtypes (hb : Built settings declarations links h)
    (hc : c ∈ h.graph.directSubtypes type) : h.canonical c = .ok c := by
  rw [Graph.mem_directSubtypes, Graph.adj_inheritance, Graph.mem_targets, Graph.mem_targets] at hc
  apply hb.canonical_of_mem
  rcases hc with hedge | hedge
  · exact (hb.linkage.mem_nodeNames_of_mem_edges hedge).1
  · exact (hb.linkage.mem_nodeNames_of_mem_edges hedge).1

theorem mem_sources_extension (hb : Built settings declarations links h) :
    c ∈ h.graph.sources type .extension ↔ h.superclassOf c = .ok (some type) := by
  rw [Graph.mem_sources, hb.superclassOf_eq_some_iff, hb.linkage.superclass?_eq_some_iff]

theorem directlyBelow (hb : Built settings declarations links h) (type : TypeName) :
    h.DirectlyBelow type (h.graph.directSubtypes type) where
  nodup := nodup_eraseDups _
  known c hc := contains_of_canonical (hb.canonical_of_mem_directSubtypes hc)
  mem_iff c := by
    rw [Graph.mem_directSubtypes, Graph.adj_inheritance, ← Graph.mem_sources,
      hb.mem_sources_extension]
  extending_first := by
    refine ⟨_, _, h.graph.directSubtypes_eq type, fun c hc => ?_, fun c hc hsuper => ?_⟩
    · exact hb.mem_sources_extension.1 (List.mem_eraseDups.1 hc)
    · exact of_decide_eq_true (List.mem_filter.1 hc).2 (hb.mem_sources_extension.2 hsuper)

end Built

end Hierarchy

/-- The types directly below a type are listed once each, those that extend it first, and a type is
a subtype of another exactly if it is the same or a subtype of one of these. -/
theorem subtypesOf_dual {settings : Resolver} {declarations : List Declaration} {h : Hierarchy}
    (hbuild : (Hierarchy.build settings declarations).value = .ok h) {b : TypeName}
    (hb : h.contains b = true) :
    ∃ type below, h.canonical b = .ok type ∧
      type = (if settings.isRoot b then h.rootName else b) ∧ h.subtypesOf b = .ok below ∧
      h.DirectlyBelow type below ∧
      ∀ a, h.contains a = true → ∃ answer, h.isSubtypeOf a b = .ok answer ∧
        (answer = true ↔ h.canonical a = h.canonical b ∨
          ∃ c ∈ below, h.isSubtypeOf a c = .ok true) := by
  obtain ⟨links, hbuilt⟩ := Hierarchy.built_of_build hbuild
  have htype := hbuilt.canonical_of_contains hb
  refine ⟨_, _, htype, rfl, Hierarchy.subtypesOf_of_canonical htype, hbuilt.directlyBelow _,
    fun a ha => ?_⟩
  have hself := hbuilt.canonical_of_contains ha
  obtain ⟨answer, hanswer, hiff⟩ := Hierarchy.isSubtypeOf_of_canonical hself htype
  refine ⟨answer, hanswer, ?_⟩
  rw [hiff, Graph.reaches_iff_directSubtypes, hself, htype, Except.ok.injEq]
  refine or_congr_right (exists_congr fun c => and_congr_right fun hc => ?_)
  have hbelow := hbuilt.canonical_of_mem_directSubtypes hc
  obtain ⟨yes, hyes, hreaches⟩ := Hierarchy.isSubtypeOf_of_canonical hself hbelow
  rw [← hreaches, hyes, Except.ok.injEq]

/-- Types below an external type, one of which both extends and implements it. -/
def bothWays : List Declaration :=
  [{ name := "app.Left", kind := .concreteClass, interfaces := ["Runnable"] },
    { name := "app.Both", kind := .concreteClass, superclass := some "Runnable",
      interfaces := ["Runnable"] },
    { name := "app.Tagged", kind := .interface, interfaces := ["Runnable"] },
    { name := "app.Right", kind := .concreteClass, superclass := some "Runnable" }]

theorem subtypesOf_dual_bothWays :
    ∃ h below answer, (Hierarchy.build {} bothWays).value = .ok h ∧
      h.subtypesOf "Runnable" = .ok below ∧
      below = ["app.Both", "app.Right", "app.Left", "app.Tagged"] ∧ below.Nodup ∧
      h.isSubtypeOf "app.Tagged" "Runnable" = .ok answer ∧ answer = true := by
  have hbuild : (Hierarchy.build {} bothWays).value = .ok _ :=
    Hierarchy.value_build_of_run (show Linking.run {} bothWays = .ok _ from rfl) (by decide +kernel)
  obtain ⟨_, below, _, -, hbelow, hlist, hdual⟩ :=
    subtypesOf_dual hbuild (show Hierarchy.contains _ "Runnable" = true by decide)
  obtain ⟨answer, hanswer, hiff⟩ :=
    hdual "app.Tagged" (show Hierarchy.contains _ "app.Tagged" = true by decide)
  obtain rfl := Except.ok.inj ((show _ = Except.ok
    ["app.Both", "app.Right", "app.Left", "app.Tagged"] by decide +kernel).symm.trans hbelow)
  refine ⟨_, _, answer, hbuild, hbelow, rfl, hlist.nodup, hanswer, hiff.2 (Or.inr ?_)⟩
  exact ⟨"app.Tagged", by decide, by decide +kernel⟩

end Lineage
