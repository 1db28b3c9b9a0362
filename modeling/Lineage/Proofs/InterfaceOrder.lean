import Lineage.Proofs.BreadthFirst
import Lineage.Proofs.ClassTree

/-!
# The order of interfaces

The interfaces of a type are found class by class: those of the type itself in breadth-first order,
then what the classes above it add. One list of interfaces goes through all these searches, and what
it holds is not searched again. Nothing is lost by that, since the list holds all interfaces of its
interfaces, and no place changes (`Graph.interfacesOfAll_eq`). So a type has its own interfaces
first and then those of its superclass, in the order that they have there, less its own
(`interfacesOf_order`).
-/

namespace Lineage

namespace Graph

variable {g : Graph}

/-- What a type implements by itself, directly or not, in breadth-first order. -/
def ownInterfaces (g : Graph) (name : TypeName) : List TypeName :=
  (g.along .implementation).breadthFirst (g.targets name .implementation)

theorem not_cyclic_implementation (hacyclic : ¬ g.inheritance.Cyclic) :
    ¬ (g.along .implementation).Cyclic := by
  rintro ⟨a, ha⟩
  exact hacyclic ⟨a, Relation.TransGen.mono (fun _ _ => adj_of_implementation) a a ha⟩

/-- The searches from some types, one after the other, that start with some interfaces found. What
these implement must have been found as well. -/
theorem foldl_closure_eq (hacyclic : ¬ g.inheritance.Cyclic) (names : List TypeName)
    {found : List TypeName} (hnodup : found.Nodup)
    (hclosed : ∀ a ∈ found, ∀ b, (g.along .implementation).Adj a b → b ∈ found) :
    names.foldl (fun found name =>
        (g.along .implementation).closure found (g.targets name .implementation)) found =
      (found ++ names.flatMap fun name =>
        (g.along .implementation).layers (g.targets name .implementation)).eraseDups := by
  induction names generalizing found with
  | nil => rw [List.foldl_nil, List.flatMap_nil, List.append_nil, eraseDups_of_nodup hnodup]
  | cons name names ih =>
    have hopen : ∀ a ∈ found, ∀ b, (g.along .implementation).Adj a b →
        b ∈ found ∨ b ∈ g.targets name .implementation :=
      fun a ha b hab => Or.inl (hclosed a ha b hab)
    have heq := Digraph.closure_eq_eraseDups (not_cyclic_implementation hacyclic) hnodup hopen
    have hclosed' := Digraph.closure_closed hopen
    rw [List.foldl_cons, List.flatMap_cons, ← List.append_assoc, ← eraseDups_append_left, ← heq]
    exact ih (heq ▸ nodup_eraseDups _) hclosed'

/-- The interfaces of some types are what the paths from these types lead to, type by type and
layer by layer, each where it comes up first. -/
theorem interfacesOfAll_eq (hacyclic : ¬ g.inheritance.Cyclic) (names : List TypeName) :
    g.interfacesOfAll names = (names.flatMap fun name =>
      (g.along .implementation).layers (g.targets name .implementation)).eraseDups :=
  foldl_closure_eq hacyclic names List.nodup_nil fun _ ha => absurd ha List.not_mem_nil

theorem nodup_interfacesOfAll (hacyclic : ¬ g.inheritance.Cyclic) (names : List TypeName) :
    (g.interfacesOfAll names).Nodup := by
  rw [interfacesOfAll_eq hacyclic]
  exact nodup_eraseDups _

theorem interfacesOfAll_cons (hacyclic : ¬ g.inheritance.Cyclic) (name : TypeName)
    (names : List TypeName) :
    g.interfacesOfAll (name :: names) =
      g.ownInterfaces name ++ (g.interfacesOfAll names).filter (· ∉ g.ownInterfaces name) := by
  rw [interfacesOfAll_eq hacyclic, List.flatMap_cons, List.eraseDups_append, List.removeAll,
    eraseDups_filter, ← interfacesOfAll_eq hacyclic]
  refine congrArg (g.ownInterfaces name ++ ·) (List.filter_congr fun i _ => ?_)
  rw [ownInterfaces, Digraph.breadthFirst, List.elem_eq_mem, decide_not]
  simp only [List.mem_eraseDups]

/-- Interfaces are inherited along the chain of superclasses. -/
theorem interfacesOfAll_of_superclass? (hacyclic : ¬ g.inheritance.Cyclic) {name super : TypeName}
    (hsuper : g.superclass? name = some super) :
    g.interfacesOfAll (name :: g.ancestors name) = g.ownInterfaces name ++
      (g.interfacesOfAll (super :: g.ancestors super)).filter (· ∉ g.ownInterfaces name) := by
  rw [interfacesOfAll_cons hacyclic, ancestors_eq hacyclic name, hsuper]

theorem interfacesOfAll_of_superclass?_none (hacyclic : ¬ g.inheritance.Cyclic) {name : TypeName}
    (hnone : g.superclass? name = none) :
    g.interfacesOfAll (name :: g.ancestors name) = g.ownInterfaces name := by
  rw [interfacesOfAll_cons hacyclic, ancestors_eq hacyclic name, hnone]
  exact List.append_nil _

end Graph

/-- The interfaces of a type are those that the type or a class above it implements, directly or
not. Its own come first, in breadth-first order, and then those that it has from its superclass
alone, in the order that they have there. -/
theorem interfacesOf_order {settings : Resolver} {declarations : List Declaration} {h : Hierarchy}
    (hbuild : (Hierarchy.build settings declarations).value = .ok h) {name : TypeName}
    (hname : h.contains name = true) :
    ∃ type above interfaces, h.canonical name = .ok type ∧
      type = (if settings.isRoot name then h.rootName else name) ∧
      h.ancestorsOf name = .ok above ∧ h.interfacesOf name = .ok interfaces ∧ interfaces.Nodup ∧
      (∀ i, i ∈ interfaces ↔ ∃ a ∈ type :: above, h.graph.Implements a i) ∧
      (h.superclassOf name = .ok none → interfaces = h.graph.ownInterfaces type) ∧
      ∀ super, h.superclassOf name = .ok (some super) → ∃ inherited,
        h.interfacesOf super = .ok inherited ∧ interfaces = h.graph.ownInterfaces type ++
          inherited.filter (· ∉ h.graph.ownInterfaces type) := by
  obtain ⟨links, hb⟩ := Hierarchy.built_of_build hbuild
  have htype := hb.canonical_of_contains hname
  have hsuperclass := Hierarchy.superclassOf_of_canonical htype
  refine ⟨_, _, _, htype, rfl, Hierarchy.ancestorsOf_of_canonical htype,
    Hierarchy.interfacesOf_of_canonical htype, Graph.nodup_interfacesOfAll hb.acyclic_inheritance _,
    fun i => Graph.mem_interfacesOfAll, fun hnone => ?_, fun super hsuper => ?_⟩
  · exact Graph.interfacesOfAll_of_superclass?_none hb.acyclic_inheritance
      (Except.ok.inj (hsuperclass.symm.trans hnone))
  · have hsuper' := Except.ok.inj (hsuperclass.symm.trans hsuper)
    have hnode := (hb.mem_nodeNames_of_superclass? hsuper').2
    exact ⟨_, Hierarchy.interfacesOf_of_canonical (hb.canonical_of_mem hnode),
      Graph.interfacesOfAll_of_superclass? hb.acyclic_inheritance hsuper'⟩

/-- A class that lists an interface that it has from another one and from its superclass as well. -/
def sharedSource : List Declaration :=
  [{ name := "app.Source", kind := .interface },
    { name := "app.Reader", kind := .interface, interfaces := ["app.Source"] },
    { name := "app.Closer", kind := .interface, interfaces := ["app.Source"] },
    { name := "app.Stream", kind := .abstractClass, interfaces := ["app.Closer", "Runnable"] },
    { name := "app.File", kind := .concreteClass, superclass := some "app.Stream",
      interfaces := ["app.Reader", "app.Source"] }]

theorem interfacesOf_order_sharedSource :
    ∃ h interfaces, (Hierarchy.build {} sharedSource).value = .ok h ∧
      h.superclassOf "app.File" = .ok (some "app.Stream") ∧
      h.interfacesOf "app.File" = .ok interfaces ∧ interfaces.Nodup ∧
      interfaces = ["app.Reader", "app.Source"] ++
        ["app.Closer", "Runnable", "app.Source"].filter (· ∉ ["app.Reader", "app.Source"]) := by
  have hbuild : (Hierarchy.build {} sharedSource).value = .ok _ :=
    Hierarchy.value_build_of_run (show Linking.run {} sharedSource = .ok _ from rfl)
      (by decide +kernel)
  obtain ⟨type, _, interfaces, htype, -, -, hinterfaces, hnodup, -, -, hinherited⟩ :=
    interfacesOf_order hbuild (show Hierarchy.contains _ "app.File" = true by decide)
  obtain rfl := Except.ok.inj ((show _ = Except.ok "app.File" from rfl).symm.trans htype)
  obtain ⟨inherited, hstream, heq⟩ := hinherited "app.Stream" rfl
  obtain rfl := Except.ok.inj ((show _ = Except.ok ["app.Closer", "Runnable", "app.Source"] by
    decide +kernel).symm.trans hstream)
  refine ⟨_, interfaces, hbuild, rfl, hinterfaces, hnodup, heq.trans ?_⟩
  decide +kernel

end Lineage
