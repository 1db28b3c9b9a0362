import Lineage.Proofs.Alike

/-!
# Independence of the input order

Declarations in another order make the same hierarchy, or fail with an error of the same kind
(`build_perm`), as long as the scopes around each type are few enough for the search of a member
(`Resolver.FewScopes`). Then a reference means the same in every order (`Reordered.meaning_eq`), so
that the graphs linked from both orders are alike (`Linkage.alike`). Errors are of one kind if they
have the same word, since no two kinds share one (`StructureError.key_eq_key_iff`).
-/

namespace Lineage

namespace Resolver

/-- The names met on the way out from each declared type are at most two more than the declared
types, so that no search for a member ends too early. -/
def FewScopes (settings : Resolver) (declarations : List Declaration) : Prop :=
  ∀ d ∈ declarations, ∀ k,
    (d.name :: follow (Graph.unlinked settings declarations).outerName k d.name).toFinset.card ≤
      declarations.length + 2

variable {settings : Resolver} {declarations declarations' : List Declaration}

theorem WellNamed.perm (hnamed : settings.WellNamed declarations)
    (hperm : declarations.Perm declarations') : settings.WellNamed declarations' where
  nodup := (hperm.map _).nodup_iff.1 hnamed.nodup
  noRoot d hd := hnamed.noRoot d (hperm.mem_iff.2 hd)

theorem foreign_perm (hperm : declarations.Perm declarations') {name : TypeName} :
    settings.Foreign declarations name ↔ settings.Foreign declarations' name := by
  unfold Foreign
  rw [(hperm.map _).mem_iff]

theorem declared?_perm (hnamed : settings.WellNamed declarations)
    (hperm : declarations.Perm declarations') (name : TypeName) :
    (Graph.unlinked settings declarations).declared? name =
      (Graph.unlinked settings declarations').declared? name := by
  unfold Graph.declared?
  apply Option.ext
  intro d
  rw [Graph.declared_unlinked, Graph.declared_unlinked, find?_name_eq_some_iff hnamed.nodup,
    find?_name_eq_some_iff (hnamed.perm hperm).nodup, hperm.mem_iff]

/-! ## References -/

/-- What holds of declarations in both orders. -/
structure Reordered (settings : Resolver) (declarations declarations' : List Declaration) :
    Prop where
  named : settings.WellNamed declarations
  perm : declarations.Perm declarations'
  few : settings.FewScopes declarations

namespace Reordered

variable {d : Declaration}

theorem rfl (hnamed : settings.WellNamed declarations) (hfew : settings.FewScopes declarations) :
    settings.Reordered declarations declarations :=
  ⟨hnamed, .rfl, hfew⟩

theorem symm (h : settings.Reordered declarations declarations') :
    settings.Reordered declarations' declarations := by
  refine ⟨h.named.perm h.perm, h.perm.symm, fun d hd k => ?_⟩
  rw [← follow_congr (Graph.outerName_congr (declared?_perm h.named h.perm)), ← h.perm.length_eq]
  exact h.few d (h.perm.mem_iff.2 hd) k

theorem lookupWithin_eq (h : settings.Reordered declarations declarations')
    (hd : d ∈ declarations) {m n : Nat} (hm : declarations.length < m)
    (hn : declarations'.length < n) (reference : TypeName) :
    (Graph.unlinked settings declarations).lookupWithin (m + 1) d.name reference =
      (Graph.unlinked settings declarations').lookupWithin (n + 1) d.name reference := by
  rw [← h.perm.length_eq] at hn
  rw [Graph.lookupWithin_stable (h.few d hd) (Nat.succ_le_succ hm) (Nat.succ_le_succ hn),
    Graph.lookupWithin_congr (declared?_perm h.named h.perm)]

/-- What a reference means does not depend on the order. -/
theorem meaning_eq (h : settings.Reordered declarations declarations') (hd : d ∈ declarations)
    {m n : Nat} (hm : declarations.length < m) (hn : declarations'.length < n)
    (reference : TypeName) :
    settings.meaning declarations (m + 1) d.name reference =
      settings.meaning declarations' (n + 1) d.name reference := by
  unfold meaning
  rw [h.lookupWithin_eq hd hm hn]

theorem means (h : settings.Reordered declarations declarations') (hd : d ∈ declarations)
    {limit limit' : Nat} (hlimit' : declarations'.length < limit') {reference target : TypeName}
    (hmeans : settings.Means declarations limit d.name reference target) :
    settings.Means declarations' limit' d.name reference target := by
  obtain ⟨nodes, hnodes, -, hmeaning⟩ := hmeans
  refine ⟨limit', hlimit', le_rfl, ?_⟩
  rw [← h.meaning_eq hd hnodes hlimit']
  exact hmeaning

theorem reads (h : settings.Reordered declarations declarations') (hd : d ∈ declarations)
    {limit limit' : Nat} (hlimit' : declarations'.length < limit') {k : Links}
    (hk : settings.Reads declarations limit d k) : settings.Reads declarations' limit' d k where
  superclass := hk.superclass.imp fun _ _ => h.means hd hlimit'
  interfaces := hk.interfaces.imp fun _ _ => h.means hd hlimit'
  outer := by
    have houter := hk.outer
    unfold OuterMeans at houter ⊢
    cases hname : d.enclosingType with
    | none =>
      rw [hname] at houter
      simp only [] at houter ⊢
      rw [← funext (declared?_perm h.named h.perm)]
      exact houter
    | some reference =>
      rw [hname] at houter
      obtain ⟨nodes, hnodes, outer, hlookup, heq⟩ := houter
      refine ⟨limit', hlimit', outer, ?_, heq⟩
      rw [← h.lookupWithin_eq hd hnodes hlimit']
      exact hlookup

/-- A declaration whose references mean something in one order does not fail in the other. -/
theorem not_fails (h : settings.Reordered declarations declarations') (hd : d ∈ declarations)
    {limit : Nat} {k : Links} (hk : settings.Reads declarations' limit d k)
    (error : StructureError) : ¬ settings.Fails declarations d error := by
  rintro ⟨reference, nodes, -, hnodes, ⟨hmem, hnone⟩ | ⟨henclosing, hnone⟩⟩
  · obtain ⟨target, nodes', hnodes', -, hmeaning⟩ := hk.means_of_mem hmem
    rw [h.meaning_eq hd hnodes hnodes', hmeaning] at hnone
    exact nomatch hnone
  · have houter := hk.outer
    unfold OuterMeans at houter
    rw [henclosing] at houter
    obtain ⟨nodes', hnodes', outer, hlookup, -⟩ := houter
    rw [h.lookupWithin_eq hd hnodes hnodes', hlookup] at hnone
    exact nomatch hnone

end Reordered

theorem Reads.unique (hnamed : settings.WellNamed declarations)
    (hfew : settings.FewScopes declarations) {d : Declaration} (hd : d ∈ declarations)
    {limit : Nat} {k k' : Links} (hk : settings.Reads declarations limit d k)
    (hk' : settings.Reads declarations limit d k') : k = k' := by
  have hsame := Reordered.rfl hnamed hfew
  have hunique : Relator.RightUnique (settings.Means declarations limit d.name) := by
    rintro reference a b ⟨m, hm, -, ha⟩ ⟨n, hn, -, hb⟩
    rw [hsame.meaning_eq hd hm hn, hb] at ha
    exact (Option.some.inj ha).symm
  have hsuper : k.superclass = k'.superclass := by
    have h := hk.superclass
    have h' := hk'.superclass
    unfold SuperclassMeans at h h'
    split_ifs at h h'
    · cases hname : d.superclass with
      | none =>
        rw [hname] at h h'
        exact h.trans h'.symm
      | some reference =>
        rw [hname] at h h'
        obtain ⟨a, ha, hmeans⟩ := h
        obtain ⟨b, hb, hmeans'⟩ := h'
        rw [ha, hb, hunique hmeans hmeans']
    · exact h.trans h'.symm
  have houter : k.outer = k'.outer := by
    have h := hk.outer
    have h' := hk'.outer
    unfold OuterMeans at h h'
    cases hname : d.enclosingType with
    | none =>
      rw [hname] at h h'
      exact h.trans h'.symm
    | some reference =>
      rw [hname] at h h'
      obtain ⟨m, hm, a, ha, heq⟩ := h
      obtain ⟨n, hn, b, hb, heq'⟩ := h'
      rw [hsame.lookupWithin_eq hd hm hn, hb] at ha
      rw [heq, heq', Option.some.inj ha]
  have hinterfaces := hunique.forall₂ hk.interfaces hk'.interfaces
  cases k
  cases k'
  simp only at hsuper houter hinterfaces
  rw [hsuper, houter, hinterfaces]

end Resolver

/-! ## Linked graphs -/

theorem inherited_congr {edges edges' : List Edge} (h : edges.Perm edges') (name : TypeName) :
    Inherited edges name ↔ Inherited edges' name := by
  unfold Inherited
  simp only [h.mem_iff]

theorem extended_congr {edges edges' : List Edge} (h : edges.Perm edges') (name : TypeName) :
    Extended edges name ↔ Extended edges' name := by
  unfold Extended
  simp only [h.mem_iff]

theorem eq_of_perm {α : Type} {xs ys : List α} (h : xs.Perm ys) (hle : xs.length ≤ 1) :
    xs = ys := by
  match xs with
  | [] => exact h.nil_eq
  | [x] => exact List.singleton_perm.1 h
  | x :: y :: rest =>
    rw [List.length_cons, List.length_cons] at hle
    omega

namespace Linkage

variable {settings : Resolver} {declarations declarations' : List Declaration}
  {links links' : List (Declaration × Links)} {g g' : Graph}

theorem nodup_links (h : Linkage settings declarations links g) : links.Nodup :=
  List.Nodup.of_map _ h.nodup_names

theorem mem_links (h : Linkage settings declarations links g)
    (h' : Linkage settings declarations' links' g')
    (hsame : settings.Reordered declarations declarations') {p : Declaration × Links}
    (hp : p ∈ links) : p ∈ links' := by
  obtain ⟨d, k⟩ := p
  have hd : d ∈ declarations := h.mem_declarations hp
  obtain ⟨k', hk'⟩ := h'.exists_links (hsame.perm.mem_iff.1 hd)
  have hreads : settings.Reads declarations g.nodeCount d k' :=
    hsame.symm.reads (hsame.perm.mem_iff.1 hd) h.linked.lt_nodeCount (h'.reads _ hk')
  obtain rfl := (h.reads _ hp).unique hsame.named hsame.few hd hreads
  exact hk'

theorem links_perm (h : Linkage settings declarations links g)
    (h' : Linkage settings declarations' links' g')
    (hsame : settings.Reordered declarations declarations') : links.Perm links' :=
  (List.perm_ext_iff_of_nodup h.nodup_links h'.nodup_links).2 fun _ =>
    ⟨h.mem_links h' hsame, h'.mem_links h hsame.symm⟩

theorem alike (h : Linkage settings declarations links g)
    (h' : Linkage settings declarations' links' g')
    (hsame : settings.Reordered declarations declarations') : Alike g g' := by
  have hlinks := h.links_perm h' hsame
  have hown : (ownEdges links).Perm (ownEdges links') := hlinks.flatMap_right _
  have hedges : g.edges.Perm g'.edges := by
    obtain ⟨rooted, hnodup, hmem, hperm⟩ := h.edges_perm
    obtain ⟨rooted', hnodup', hmem', hperm'⟩ := h'.edges_perm
    have hrooted : rooted.Perm rooted' := by
      refine (List.perm_ext_iff_of_nodup hnodup hnodup').2 fun name => ?_
      rw [hmem, hmem', Resolver.foreign_perm hsame.perm, extended_congr hown]
    exact hperm.trans ((hown.append (hrooted.map _)).trans hperm'.symm)
  have hnames : ∀ name, name ∈ declarations.map (·.name) ↔ name ∈ declarations'.map (·.name) :=
    fun name => (hsame.perm.map _).mem_iff
  refine
    { root := h.linked.root.trans h'.linked.root.symm
      isRootName := fun name =>
        (h.linked.isRootName name).trans (h'.linked.isRootName name).symm
      declared := ?_
      declared? := fun name => ?_
      externals := fun name => ?_
      edges := hedges
      implementation := fun name => ?_
      superclass? := fun name => ?_
      enclosing? := fun name => ?_ }
  · rw [h.linked.declared, h'.linked.declared]
    exact hsame.perm
  · rw [h.linked.declared?_eq, h'.linked.declared?_eq]
    exact Resolver.declared?_perm hsame.named hsame.perm name
  · rw [h.linked.mem_externals, h'.linked.mem_externals, Resolver.foreign_perm hsame.perm,
      inherited_congr hown]
  · by_cases hname : name ∈ declarations.map (·.name)
    · obtain ⟨d, k, hk, rfl⟩ := h.exists_of_mem_names hname
      rw [h.targets_implementation hk, h'.targets_implementation (h.mem_links h' hsame hk)]
    · rw [h.targets_implementation_of_not_declared hname,
        h'.targets_implementation_of_not_declared (mt (hnames name).2 hname)]
  · rw [Graph.superclass?_eq_head?, Graph.superclass?_eq_head?]
    refine congrArg List.head? (eq_of_perm ?_ (h.length_targets_extension_le name))
    rw [Graph.targets_eq, Graph.targets_eq]
    exact (hedges.filter _).map _
  · rw [Graph.enclosing?_eq_head?, Graph.enclosing?_eq_head?]
    refine congrArg List.head? (eq_of_perm ?_ (h.length_successors_nesting_le name))
    rw [Graph.successors_nesting_eq, Graph.successors_nesting_eq]
    exact (hedges.filter _).map _

end Linkage

/-! ## Outcomes -/

namespace StructureError

/-- The words for the kinds of errors, in the order of the kinds. -/
def keys : List String :=
  ["malformed_declaration", "unresolved_reference", "duplicate_declaration", "inheritance_cycle",
    "multiple_class_inheritance", "supertype_kind_mismatch", "enclosing_cycle"]

theorem getElem?_keys_ctorIdx (e : StructureError) : keys[e.ctorIdx]? = some e.key := by
  cases e <;> rfl

/-- No two kinds of errors have the same word. -/
theorem key_eq_key_iff {e e' : StructureError} : e.key = e'.key ↔ e.ctorIdx = e'.ctorIdx := by
  have hkeys : keys.Nodup := by decide
  obtain ⟨hlt, -⟩ := List.getElem?_eq_some_iff.1 (getElem?_keys_ctorIdx e)
  rw [← Option.some_inj, ← getElem?_keys_ctorIdx e, ← getElem?_keys_ctorIdx e']
  exact List.getElem?_inj hlt hkeys

end StructureError

/-- Two attempts at building fail with errors of one kind, or give hierarchies that agree. -/
inductive SameOutcome :
    Except StructureError Hierarchy → Except StructureError Hierarchy → Prop
  | failed {e e' : StructureError} (h : e.ctorIdx = e'.ctorIdx) :
    SameOutcome (.error e) (.error e')
  | built {h h' : Hierarchy} (agree : h.Agree h') : SameOutcome (.ok h) (.ok h')

/-- A run that fails names a duplicate, if there is any, and else a reference that means nothing. -/
theorem key_of_run {settings : Resolver} {declarations : List Declaration} {f : Linking.Failure}
    (hrun : Linking.run settings declarations = .error f) :
    (¬ settings.WellNamed declarations ∧ f.error.key = "duplicate_declaration") ∨
    (settings.WellNamed declarations ∧ f.error.key = "unresolved_reference" ∧
      ∃ d ∈ declarations, settings.Fails declarations d f.error) := by
  have hends := run_ends settings declarations
  rw [hrun] at hends
  rcases hends with ⟨hnot, name, hname⟩ | ⟨hnamed, d, hd, hfails⟩
  · refine Or.inl ⟨hnot, ?_⟩
    rw [hname]
    rfl
  · obtain ⟨_, _, herror, -⟩ := id hfails
    refine Or.inr ⟨hnamed, ?_, d, hd, hfails⟩
    rw [herror]
    rfl

/-- Where linking in one order ends well, so it does in the other. -/
theorem exists_run_of_reordered {settings : Resolver}
    {declarations declarations' : List Declaration}
    (hsame : settings.Reordered declarations declarations') {l' : Linking}
    (hrun' : Linking.run settings declarations' = .ok l') :
    ∃ l, Linking.run settings declarations = .ok l := by
  cases hrun : Linking.run settings declarations with
  | ok l => exact ⟨l, rfl⟩
  | error f =>
    obtain ⟨links', h'⟩ := linkage_of_run hrun'
    rcases key_of_run hrun with ⟨hnot, -⟩ | ⟨-, -, d, hd, hfails⟩
    · exact absurd hsame.named hnot
    · obtain ⟨k, hk⟩ := h'.exists_links (hsame.perm.mem_iff.1 hd)
      exact absurd hfails (hsame.not_fails hd (h'.reads _ hk) _)

/-- Linking in another order fails with an error of the same kind, or gives a graph that is
alike. -/
theorem run_perm {settings : Resolver} {declarations declarations' : List Declaration}
    (hperm : declarations.Perm declarations') (hfew : settings.FewScopes declarations) :
    (∃ f f', Linking.run settings declarations = .error f ∧
      Linking.run settings declarations' = .error f' ∧ f.error.key = f'.error.key) ∨
    ∃ l l' links links', Linking.run settings declarations = .ok l ∧
      Linking.run settings declarations' = .ok l' ∧
      Linkage settings declarations links l.graph ∧
      Linkage settings declarations' links' l'.graph ∧ Alike l.graph l'.graph := by
  have hnamed : settings.WellNamed declarations ↔ settings.WellNamed declarations' :=
    ⟨fun h => h.perm hperm, fun h => h.perm hperm.symm⟩
  cases hrun : Linking.run settings declarations with
  | ok l =>
    obtain ⟨links, h⟩ := linkage_of_run hrun
    have hsame : settings.Reordered declarations declarations' := ⟨h.named, hperm, hfew⟩
    obtain ⟨l', hrun'⟩ := exists_run_of_reordered hsame.symm hrun
    obtain ⟨links', h'⟩ := linkage_of_run hrun'
    exact Or.inr ⟨l, l', links, links', rfl, hrun', h, h', h.alike h' hsame⟩
  | error f =>
    cases hrun' : Linking.run settings declarations' with
    | ok l' =>
      obtain ⟨links', h'⟩ := linkage_of_run hrun'
      have hsame : settings.Reordered declarations declarations' :=
        ⟨hnamed.2 h'.named, hperm, hfew⟩
      obtain ⟨l, hl⟩ := exists_run_of_reordered hsame hrun'
      rw [hrun] at hl
      exact nomatch hl
    | error f' =>
      refine Or.inl ⟨f, f', rfl, rfl, ?_⟩
      rcases key_of_run hrun with ⟨hnot, hkey⟩ | ⟨hall, hkey, -⟩
      · rcases key_of_run hrun' with ⟨-, hkey'⟩ | ⟨hall', -, -⟩
        · rw [hkey, hkey']
        · exact absurd (hnamed.2 hall') hnot
      · rcases key_of_run hrun' with ⟨hnot', -⟩ | ⟨-, hkey', -⟩
        · exact absurd (hnamed.1 hall) hnot'
        · rw [hkey, hkey']

/-- The outcome of building does not depend on the order of the declarations. -/
theorem build_perm {settings : Resolver} {declarations declarations' : List Declaration}
    (hperm : declarations.Perm declarations') (hfew : settings.FewScopes declarations) :
    SameOutcome (Hierarchy.build settings declarations).value
      (Hierarchy.build settings declarations').value := by
  rw [Hierarchy.value_build, Hierarchy.value_build]
  rcases run_perm hperm hfew with
    ⟨f, f', hrun, hrun', hkey⟩ | ⟨l, l', links, links', hrun, hrun', h, h', ha⟩
  · rw [hrun, hrun']
    exact .failed (StructureError.key_eq_key_iff.1 hkey)
  · have hkeys := ha.map_key_fault? h h'
    rw [hrun, hrun']
    simp only []
    cases hfault : l.graph.fault? with
    | some e =>
      cases hfault' : l'.graph.fault? with
      | some e' =>
        rw [hfault, hfault'] at hkeys
        exact .failed (StructureError.key_eq_key_iff.1 (Option.some.inj hkeys))
      | none =>
        rw [hfault, hfault'] at hkeys
        exact nomatch hkeys
    | none =>
      cases hfault' : l'.graph.fault? with
      | some e' =>
        rw [hfault, hfault'] at hkeys
        exact nomatch hkeys
      | none =>
        have hbuilt : Hierarchy.Built settings declarations links
            ⟨l.graph, l.graph.ledger.obligations⟩ := ⟨h, hfault, rfl⟩
        have hbuilt' : Hierarchy.Built settings declarations' links'
            ⟨l'.graph, l'.graph.ledger.obligations⟩ := ⟨h', hfault', rfl⟩
        exact .built (Alike.agree hbuilt hbuilt' ha)

/-- A class with a member that implements an interface of its package. -/
def shadowing : List Declaration :=
  [{ name := "app.Job", kind := .concreteClass },
    { name := "app.Job$Step", kind := .concreteClass, interfaces := ["Runnable"] },
    { name := "app.Runnable", kind := .interface }]

theorem fewScopes_shadowing : Resolver.FewScopes {} shadowing := by
  have hend : ∀ name ∈ ["app.Job", "app.Runnable"], ∀ k,
      follow (Graph.unlinked {} shadowing).outerName k name = [] := by
    intro name hname k
    simp only [List.mem_cons, List.not_mem_nil, or_false] at hname
    rcases hname with rfl | rfl <;> cases k <;> rfl
  have hmember : ∀ k,
      (follow (Graph.unlinked {} shadowing).outerName k "app.Job$Step").length ≤ 1 := by
    intro k
    cases k with
    | zero => exact Nat.zero_le 1
    | succ k =>
      show ("app.Job" :: follow (Graph.unlinked {} shadowing).outerName k "app.Job").length ≤ 1
      rw [hend "app.Job" (by decide)]
      exact le_rfl
  have hwalk : ∀ d ∈ shadowing, ∀ k,
      (follow (Graph.unlinked {} shadowing).outerName k d.name).length ≤ 1 := by
    intro d hd k
    simp only [shadowing, List.mem_cons, List.not_mem_nil, or_false] at hd
    rcases hd with rfl | rfl | rfl
    · rw [hend "app.Job" (by decide)]
      exact Nat.zero_le 1
    · exact hmember k
    · rw [hend "app.Runnable" (by decide)]
      exact Nat.zero_le 1
  intro d hd k
  refine (List.toFinset_card_le _).trans ?_
  rw [List.length_cons]
  exact (Nat.succ_le_succ (hwalk d hd k)).trans (by decide)

theorem build_reverse_shadowing :
    ∃ h h', (Hierarchy.build {} shadowing).value = .ok h ∧
      (Hierarchy.build {} shadowing.reverse).value = .ok h' ∧ h.Agree h' := by
  have hbuild := Hierarchy.value_build_of_run
    (show Linking.run {} shadowing = .ok _ from rfl) (by decide +kernel)
  have hbuild' := Hierarchy.value_build_of_run
    (show Linking.run {} shadowing.reverse = .ok _ from rfl) (by decide +kernel)
  have hsame := build_perm (List.reverse_perm shadowing).symm fewScopes_shadowing
  rw [hbuild, hbuild'] at hsame
  cases hsame with
  | built hagree => exact ⟨_, _, hbuild, hbuild', hagree⟩

end Lineage
