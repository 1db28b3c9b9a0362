import Lineage.Proofs.Chains

/-!
# Members in scope

A supertype reference that is no name of a declared type may name a member of the referring type or
of a type around it. The scopes tried are found by name: an outer type that a declaration names
counts as it is written, so that the search leaves the chain of enclosing types where the name is
not the full one (`enclosed_member_missed`). The reference is linked to the member of the innermost
type of that chain exactly if the scopes tried lead there first, and they do if all types inside it
name their outer types in full (`linkedTo_member_iff`).
-/

namespace Lineage

namespace TypeName

theorem member_injective {outer other reference : TypeName}
    (h : member outer reference = member other reference) : outer = other := by
  unfold member at h
  have hlist := congrArg String.toList h
  simp only [String.toList_append] at hlist
  exact String.toList_injective (List.append_cancel_right (List.append_cancel_right hlist))

theorem member_ne (outer reference : TypeName) : member outer reference ≠ reference := by
  unfold member
  intro h
  have hlength := congrArg String.length h
  simp only [String.length_append] at hlength
  have hsign : "$".length = 1 := rfl
  omega

theorem member_ne_qualify (outer package reference : TypeName) :
    member outer reference ≠ qualify package reference := by
  unfold member qualify
  intro h
  have hlist := congrArg String.toList h
  simp only [String.toList_append] at hlist
  have hlast := congrArg List.getLast? (List.append_cancel_right hlist)
  simp at hlast

end TypeName

/-- Whether a scope has a member of some name that somebody declares. -/
def Graph.hasMember (g : Graph) (reference scope : TypeName) : Bool :=
  (g.declared? (TypeName.member scope reference)).isSome

/-- A type names its outer type in full, if it names any. -/
def Graph.NamesOuter (g : Graph) (name : TypeName) : Prop :=
  ∀ d reference, g.declared? name = some d → d.enclosingType = some reference →
    (g.declared? reference).isSome

/-! ## What a search finds -/

namespace Graph

variable {g : Graph} {bound : Nat} {source reference : TypeName} {d : Declaration}

theorem find?_of_lookupMember (h : g.lookupMember reference (bound + 1) source = some d) :
    ∃ scope, d.name = TypeName.member scope reference ∧
      (source :: follow g.outerName bound source).find? (g.hasMember reference) = some scope := by
  rw [lookupMember_succ] at h
  obtain ⟨before, scope, after, hwalk, hscope, hbefore⟩ := List.findSome?_eq_some_iff.1 h
  refine ⟨scope, (mem_of_declared? hscope).2, ?_⟩
  rw [hwalk, List.find?_eq_some_iff_append]
  refine ⟨?_, before, after, rfl, fun a ha => ?_⟩
  · unfold hasMember
    rw [hscope]
    rfl
  · unfold hasMember
    rw [hbefore a ha]
    rfl

theorem find?_of_lookupMember_none (h : g.lookupMember reference (bound + 1) source = none) :
    (source :: follow g.outerName bound source).find? (g.hasMember reference) = none := by
  rw [lookupMember_succ, List.findSome?_eq_none_iff] at h
  rw [List.find?_eq_none]
  intro scope hscope hmember
  unfold hasMember at hmember
  rw [h scope hscope] at hmember
  exact nomatch hmember

theorem name_ne_of_lookupPackage (h : g.lookupPackage source reference = some d)
    (scope : TypeName) : d.name ≠ TypeName.member scope reference := by
  unfold lookupPackage at h
  split_ifs at h
  obtain ⟨package, -, hd⟩ := Option.bind_eq_some_iff.1 h
  rw [(mem_of_declared? hd).2]
  exact (TypeName.member_ne_qualify scope package reference).symm

end Graph

/-- A reference that is no name of a declared type means a member of a scope exactly if that is the
first scope with such a member. -/
theorem Resolver.meaning_member_iff {settings : Resolver} {declarations : List Declaration}
    (hnamed : settings.WellNamed declarations) {bound : Nat}
    {source reference target scope : TypeName}
    (hmeaning : settings.meaning declarations (bound + 1) source reference = some target)
    (hreference : (Graph.unlinked settings declarations).declared? reference = none)
    (hscope : (Graph.unlinked settings declarations).hasMember reference scope = true) :
    target = TypeName.member scope reference ↔
      (source :: follow (Graph.unlinked settings declarations).outerName bound source).find?
        ((Graph.unlinked settings declarations).hasMember reference) = some scope := by
  unfold meaning Graph.lookupWithin at hmeaning
  rw [hreference, Option.none_or] at hmeaning
  cases hmember : (Graph.unlinked settings declarations).lookupMember reference (bound + 1)
      source with
  | some d =>
    rw [hmember] at hmeaning
    obtain rfl : d.name = target := Option.some.inj hmeaning
    obtain ⟨first, hname, hfirst⟩ := Graph.find?_of_lookupMember hmember
    rw [hfirst, hname, Option.some.injEq]
    constructor
    · exact TypeName.member_injective
    · rintro rfl
      rfl
  | none =>
    rw [hmember, Option.none_or] at hmeaning
    rw [Graph.find?_of_lookupMember_none hmember]
    refine iff_of_false ?_ (fun h => nomatch h)
    -- types of the package, the root and external types are no members of a scope
    cases hpackage : (Graph.unlinked settings declarations).lookupPackage source reference with
    | some d =>
      rw [hpackage] at hmeaning
      obtain rfl : d.name = target := Option.some.inj hmeaning
      exact Graph.name_ne_of_lookupPackage hpackage scope
    | none =>
      simp only [hpackage] at hmeaning
      split_ifs at hmeaning with hroot hadmits
      · obtain rfl := Option.some.inj hmeaning
        intro heq
        have hmem : settings.rootType ∈ declarations.map (·.name) :=
          heq ▸ Graph.declared?_isSome_iff.1 hscope
        exact hnamed.rootType_not_mem hmem
      · obtain rfl := Option.some.inj hmeaning
        exact (TypeName.member_ne scope reference).symm

/-! ## Links of references -/

/-- The type to which a supertype reference of a declaration is linked. -/
inductive LinkedTo (g : Graph) (d : Declaration) : TypeName → TypeName → Prop
  | superclass {reference target : TypeName} (hclass : d.kind.isClass = true)
      (hreference : d.superclass = some reference) (htarget : g.superclass? d.name = some target) :
      LinkedTo g d reference target
  | interface {i : Nat} {reference target : TypeName}
      (hreference : d.interfaces[i]? = some reference)
      (htarget : (g.targets d.name .implementation)[i]? = some target) :
      LinkedTo g d reference target

namespace Linkage

variable {settings : Resolver} {declarations : List Declaration}
  {links : List (Declaration × Links)} {g : Graph} {d : Declaration}

theorem means_of_linkedTo (h : Linkage settings declarations links g) (hd : d ∈ declarations)
    {reference target : TypeName} (hlink : LinkedTo g d reference target) :
    settings.Means declarations g.nodeCount d.name reference target := by
  obtain ⟨k, hk⟩ := h.exists_links hd
  have hreads := h.reads _ hk
  cases hlink with
  | superclass hclass hreference htarget =>
    obtain ⟨name, heq, hmeans⟩ := hreads.superclass.of_named hclass hreference
    rw [h.superclass?_eq hk, heq] at htarget
    exact Option.some.inj htarget ▸ hmeans
  | @interface i _ _ hreference htarget =>
    rw [h.targets_implementation hk] at htarget
    obtain ⟨hi, rfl⟩ := List.getElem?_eq_some_iff.1 hreference
    obtain ⟨hi', rfl⟩ := List.getElem?_eq_some_iff.1 htarget
    exact hreads.interfaces.get hi hi'

/-- Every supertype reference of a declared type is linked. -/
theorem exists_linkedTo (h : Linkage settings declarations links g) (hd : d ∈ declarations)
    {reference : TypeName} (hreference : reference ∈ d.supertypes) :
    ∃ target, LinkedTo g d reference target := by
  obtain ⟨k, hk⟩ := h.exists_links hd
  have hreads := h.reads _ hk
  rcases Declaration.mem_supertypes.1 hreference with ⟨hclass, hsuper⟩ | hmem
  · obtain ⟨target, heq, -⟩ := hreads.superclass.of_named hclass hsuper
    exact ⟨target, .superclass hclass hsuper ((h.superclass?_eq hk).trans heq)⟩
  · obtain ⟨i, hi, rfl⟩ := List.getElem_of_mem hmem
    have hi' : i < k.interfaces.length := hreads.interfaces.length_eq ▸ hi
    refine ⟨k.interfaces[i], .interface (List.getElem?_eq_getElem hi) ?_⟩
    rw [h.targets_implementation hk, List.getElem?_eq_getElem hi']

/-! ## Scopes and enclosing types -/

/-- From a type that names its outer type in full, the scopes go on with the type around it. -/
theorem outerName_eq (h : Linkage settings declarations links g) {name outer : TypeName}
    (hfull : g.NamesOuter name) (houter : g.enclosing? name = some outer) :
    g.outerName name = some outer := by
  have hmem : name ∈ declarations.map (·.name) := by
    by_contra hnot
    rw [Graph.enclosing?_eq_head?, h.successors_nesting_of_not_declared hnot] at houter
    exact nomatch houter
  obtain ⟨d, k, hk, rfl⟩ := h.exists_of_mem_names hmem
  have hdeclared : g.declared? d.name = some d :=
    h.declared?_eq_some_iff.2 ⟨h.mem_declarations hk, rfl⟩
  have hmeans := (h.reads _ hk).outer
  rw [h.enclosing?_eq hk] at houter
  unfold Resolver.OuterMeans at hmeans
  unfold Graph.outerName
  rw [hdeclared, Option.bind_some]
  cases htext : d.enclosingType with
  | some reference =>
    obtain ⟨e, he⟩ := Option.isSome_iff_exists.1 (hfull d reference hdeclared htext)
    rw [htext] at hmeans
    obtain ⟨bound, -, other, hlookup, heq⟩ := hmeans
    unfold Graph.lookupWithin at hlookup
    rw [← h.linked.declared?_eq, he, Option.some_or, Option.some_or] at hlookup
    rw [Option.some_or, ← houter, heq, ← Option.some.inj hlookup, (Graph.mem_of_declared? he).2]
  | none =>
    rw [htext] at hmeans
    simp only [] at hmeans
    rw [hmeans, Option.map_eq_some_iff] at houter
    obtain ⟨e, he, rfl⟩ := houter
    obtain ⟨name, himplied, hname⟩ := Option.bind_eq_some_iff.1 he
    rw [Option.none_or, himplied, (Graph.mem_of_declared? hname).2]

/-- Types on the way to an enclosing type are fewer than the declared types. -/
theorem length_lt_of_split (h : Linkage settings declarations links g)
    (hacyclic : ¬ g.nesting.Cyclic) {name scope : TypeName} {inner outer : List TypeName}
    (hsplit : name :: g.enclosingChain name = inner ++ scope :: outer) :
    inner.length ≤ declarations.length := by
  have hnodup : (inner ++ scope :: outer).Nodup :=
    hsplit ▸ Graph.nodup_enclosingChain hacyclic name
  have hsub : inner ⊆ declarations.map (·.name) := by
    intro a ha
    have hsome := isSome_of_follow hsplit a ha
    by_contra hnot
    rw [Graph.enclosing?_eq_head?, h.successors_nesting_of_not_declared hnot] at hsome
    exact nomatch hsome
  have hle := (hnodup.of_append_left.subperm hsub).length_le
  rw [List.length_map] at hle
  exact hle

end Linkage

/-- A supertype reference that is no name of a declared type is linked to the member of the
innermost enclosing type that has one exactly if the scopes tried lead there first. They go as many
steps outwards as there were nodes when the reference was linked, and they lead there first if the
types inside that one name their outer types in full. -/
theorem linkedTo_member_iff {settings : Resolver} {declarations : List Declaration} {h : Hierarchy}
    (hbuild : (Hierarchy.build settings declarations).value = .ok h) {d : Declaration}
    (hd : d ∈ declarations) {reference scope : TypeName} (hreference : reference ∈ d.supertypes)
    (hundeclared : reference ∉ declarations.map (·.name)) {chain inner outer : List TypeName}
    (hchain : h.enclosingChainOf d.name = .ok chain)
    (hsplit : d.name :: chain = inner ++ scope :: outer)
    (hinner : ∀ type ∈ inner, h.graph.hasMember reference type = false)
    (hscope : h.graph.hasMember reference scope = true) :
    (∃ target, LinkedTo h.graph d reference target) ∧
    ∀ target, LinkedTo h.graph d reference target →
      (∃ bound, declarations.length < bound ∧ bound ≤ h.graph.nodeCount ∧
        (target = TypeName.member scope reference ↔
          (d.name :: follow h.graph.outerName bound d.name).find? (h.graph.hasMember reference) =
            some scope)) ∧
      ((∀ type ∈ inner, h.graph.NamesOuter type) → target = TypeName.member scope reference) := by
  obtain ⟨links, hb⟩ := Hierarchy.built_of_build hbuild
  have hg := hb.linkage
  have hdeclared : h.graph.declared? = (Graph.unlinked settings declarations).declared? :=
    funext hg.linked.declared?_eq
  have hhas : h.graph.hasMember reference =
      (Graph.unlinked settings declarations).hasMember reference := by
    funext scope
    unfold Graph.hasMember
    rw [hdeclared]
  have houterName : h.graph.outerName = (Graph.unlinked settings declarations).outerName :=
    funext (Graph.outerName_congr hg.linked.declared?_eq)
  have hsplit' : d.name :: h.graph.enclosingChain d.name = inner ++ scope :: outer := by
    unfold Hierarchy.enclosingChainOf at hchain
    rw [hb.canonical_of_declared hd] at hchain
    rw [← hsplit, ← Except.ok.inj hchain]
  refine ⟨hg.exists_linkedTo hd hreference, fun target hlink => ?_⟩
  obtain ⟨bound, hbound, hlimit, hmeaning⟩ := hg.means_of_linkedTo hd hlink
  have hiff := Resolver.meaning_member_iff hg.named hmeaning
    (Graph.declared?_eq_none_iff.2 hundeclared) (hhas ▸ hscope)
  rw [← hhas, ← houterName] at hiff
  refine ⟨⟨bound, hbound, hlimit, hiff⟩, fun hfull => hiff.2 ?_⟩
  have hle := hg.length_lt_of_split hb.acyclic_nesting hsplit'
  obtain ⟨rest, hwalk⟩ := follow_of_prefix hsplit'
    (fun type htype other => hg.outerName_eq (hfull type htype))
    (show inner.length ≤ bound by omega)
  rw [hwalk, List.find?_eq_some_iff_append]
  refine ⟨hscope, inner, rest, rfl, fun type htype => ?_⟩
  rw [hinner type htype]
  rfl

/-- A class inside another one, which it names by some text, with an interface that is a member of
the outer class as well as a type of the package. -/
def nestedIn (outer : TypeName) : List Declaration :=
  [{ name := "app.Outer", kind := .concreteClass },
    { name := "app.Outer$M", kind := .interface },
    { name := "app.M", kind := .interface },
    { name := "app.T", kind := .concreteClass, interfaces := ["M"], enclosingType := some outer }]

/-- The graph of these types, where the inner class implements one of the interfaces. -/
def nestedGraph (outer target : TypeName) : Graph where
  root := "Object"
  aliases := ["java.lang.Object"]
  declared := nestedIn outer
  edges :=
    [⟨"app.Outer", .extension, "Object"⟩, ⟨"app.Outer", .enclosure, "app.Outer$M"⟩,
      ⟨"app.T", .extension, "Object"⟩, ⟨"app.T", .implementation, target⟩,
      ⟨"app.Outer", .enclosure, "app.T"⟩]

theorem linkedTo_member_nestedIn :
    ∃ h target, (Hierarchy.build {} (nestedIn "app.Outer")).value = .ok h ∧
      LinkedTo h.graph (nestedIn "app.Outer")[3] "M" target ∧ target = "app.Outer$M" := by
  have hrun : Linking.run {} (nestedIn "app.Outer") =
      .ok ⟨nestedGraph "app.Outer" "app.Outer$M", []⟩ := rfl
  have hbuild := Hierarchy.value_build_of_run hrun (by decide +kernel)
  obtain ⟨⟨target, hlink⟩, hall⟩ := linkedTo_member_iff hbuild
    (show (nestedIn "app.Outer")[3] ∈ nestedIn "app.Outer" by decide)
    (show "M" ∈ _ by decide) (by decide) (show _ = Except.ok ["app.Outer"] from rfl)
    (show _ = ["app.T"] ++ "app.Outer" :: [] from rfl) (by decide) (by decide)
  refine ⟨_, target, hbuild, hlink, (hall target hlink).2 fun type htype d reference hd hname => ?_⟩
  obtain rfl := List.mem_singleton.1 htype
  obtain rfl := Option.some.inj ((show _ = some (nestedIn "app.Outer")[3] from rfl).symm.trans hd)
  obtain rfl := Option.some.inj ((show _ = some "app.Outer" from rfl).symm.trans hname)
  rfl

/-- Where a class names the type around it by less than its full name, members of that type are
missed: here the interface is linked to the type of the package. -/
theorem enclosed_member_missed :
    ∃ h, (Hierarchy.build {} (nestedIn "Outer")).value = .ok h ∧
      h.enclosingChainOf "app.T" = .ok ["app.Outer"] ∧
      "M" ∉ (nestedIn "Outer").map (·.name) ∧ h.graph.hasMember "M" "app.T" = false ∧
      h.graph.hasMember "M" "app.Outer" = true ∧
      LinkedTo h.graph (nestedIn "Outer")[3] "M" "app.M" ∧
      ¬ LinkedTo h.graph (nestedIn "Outer")[3] "M" "app.Outer$M" := by
  have hrun : Linking.run {} (nestedIn "Outer") = .ok ⟨nestedGraph "Outer" "app.M", []⟩ := rfl
  have hbuild := Hierarchy.value_build_of_run hrun (by decide +kernel)
  refine ⟨_, hbuild, rfl, by decide, by decide, by decide, .interface (i := 0) rfl rfl, ?_⟩
  intro hlink
  cases hlink with
  | superclass _ hreference => exact nomatch hreference
  | @interface i _ _ hreference htarget =>
    cases i with
    | zero => exact absurd htarget (by decide)
    | succ i => exact nomatch hreference

end Lineage
