import Lineage.Proofs.MemberLookup
import Mathlib.Data.Nat.Find

/-!
# How far scopes are tried

The scopes around a type are tried from the inside outwards, at most as many steps as the graph has
nodes when a reference is looked up. A member of a scope further out is missed, and a type of the
package or none is found instead (`lookup_firstScope`). Declared types in between are never too many
for that; names that nobody declares can be (`far_member_missed`). The external types named before
count among the nodes, so that what is missed depends on the order of the declarations.
-/

namespace Lineage

namespace Graph

/-- The first scope outwards from a type that has a member of some name, and the steps to it. -/
structure FirstScope (g : Graph) (reference source : TypeName) (steps : Nat) (scope : TypeName) :
    Prop where
  reached : hop g.outerName steps source = some scope
  member : g.hasMember reference scope = true
  inner : ∀ fewer < steps, ∀ other ∈ hop g.outerName fewer source,
    g.hasMember reference other = false

instance (g : Graph) (reference source : TypeName) (steps : Nat) (scope : TypeName) :
    Decidable (g.FirstScope reference source steps scope) :=
  decidable_of_iff
    (hop g.outerName steps source = some scope ∧ g.hasMember reference scope = true ∧
      ∀ fewer < steps, ∀ other ∈ hop g.outerName fewer source,
        g.hasMember reference other = false)
    ⟨fun ⟨h, h', h''⟩ => ⟨h, h', h''⟩, fun ⟨h, h', h''⟩ => ⟨h, h', h''⟩⟩

variable {g : Graph} {reference source scope : TypeName} {steps : Nat}

theorem exists_firstScope {m : Nat} {outer : TypeName}
    (houter : hop g.outerName m source = some outer)
    (hmember : g.hasMember reference outer = true) :
    ∃ steps ≤ m, ∃ scope, g.FirstScope reference source steps scope := by
  classical
  have hsome : ∃ k, ∃ scope, hop g.outerName k source = some scope ∧
      g.hasMember reference scope = true := ⟨m, outer, houter, hmember⟩
  obtain ⟨scope, hreached, hscope⟩ := Nat.find_spec hsome
  refine ⟨Nat.find hsome, Nat.find_min' hsome ⟨outer, houter, hmember⟩, scope, hreached, hscope, ?_⟩
  intro fewer hfewer other hother
  rw [← Bool.not_eq_true]
  exact fun htrue => Nat.find_min hsome hfewer ⟨other, hother, htrue⟩

namespace FirstScope

theorem congr {g' : Graph} (hdeclared : ∀ name, g.declared? name = g'.declared? name)
    (h : g.FirstScope reference source steps scope) :
    g'.FirstScope reference source steps scope := by
  have houter : g'.outerName = g.outerName :=
    funext fun name => (outerName_congr hdeclared name).symm
  have hhas : g'.hasMember reference = g.hasMember reference := by
    funext scope
    unfold hasMember
    rw [hdeclared]
  refine ⟨?_, ?_, ?_⟩
  · rw [houter]
    exact h.reached
  · rw [hhas]
    exact h.member
  · rw [houter, hhas]
    exact h.inner

theorem unique (h : g.FirstScope reference source steps scope) {steps' : Nat} {scope' : TypeName}
    (h' : g.FirstScope reference source steps' scope') : steps = steps' ∧ scope = scope' := by
  obtain hlt | rfl | hlt := lt_trichotomy steps steps'
  · exact nomatch (h'.inner steps hlt scope h.reached).symm.trans h.member
  · exact ⟨rfl, Option.some.inj (h.reached.symm.trans h'.reached)⟩
  · exact nomatch (h.inner steps' hlt scope' h'.reached).symm.trans h'.member

theorem exists_declared (h : g.FirstScope reference source steps scope) :
    ∃ d, g.declared? (TypeName.member scope reference) = some d :=
  Option.isSome_iff_exists.1 h.member

/-- The search for a member comes to the first scope that has one if its bound allows the steps. -/
theorem lookupMember (h : g.FirstScope reference source steps scope) (bound : Nat) :
    g.lookupMember reference (bound + 1) source =
      if steps ≤ bound then g.declared? (TypeName.member scope reference) else none := by
  induction steps generalizing source bound with
  | zero =>
    obtain rfl : source = scope := Option.some.inj h.reached
    obtain ⟨d, hd⟩ := h.exists_declared
    rw [if_pos (Nat.zero_le bound), Graph.lookupMember, hd]
  | succ steps ih =>
    have hsource : g.declared? (TypeName.member source reference) = none := by
      have hnone := h.inner 0 (Nat.succ_pos steps) source rfl
      unfold hasMember at hnone
      rwa [Option.isSome_eq_false_iff, Option.isNone_iff_eq_none] at hnone
    obtain ⟨outer, houter, hreached⟩ := Option.bind_eq_some_iff.1 h.reached
    have hrest : g.FirstScope reference outer steps scope := by
      refine ⟨hreached, h.member, fun fewer hfewer other hother => ?_⟩
      refine h.inner (fewer + 1) (Nat.succ_lt_succ hfewer) other ?_
      rw [hop, houter]
      exact hother
    rw [Graph.lookupMember, hsource, houter]
    cases bound with
    | zero => rw [if_neg (Nat.not_succ_le_zero steps)]; rfl
    | succ bound =>
      simp only [Nat.succ_le_succ_iff]
      exact ih hrest bound

/-- A reference that names no declared type is looked up in the first scope with such a member, or
in the package if that scope is further away than there are nodes. -/
theorem lookup (h : g.FirstScope reference source steps scope)
    (hundeclared : g.declared? reference = none) :
    g.lookup source reference =
      if steps ≤ g.nodeCount then g.declared? (TypeName.member scope reference)
      else g.lookupPackage source reference := by
  unfold Graph.lookup
  rw [hundeclared, Option.none_or, h.lookupMember]
  split_ifs
  · obtain ⟨d, hd⟩ := h.exists_declared
    rw [hd, Option.some_or]
  · rw [Option.none_or]

theorem map_name_lookup_eq_iff (h : g.FirstScope reference source steps scope)
    (hundeclared : g.declared? reference = none) :
    (g.lookup source reference).map (·.name) = some (TypeName.member scope reference) ↔
      steps ≤ g.nodeCount := by
  rw [h.lookup hundeclared]
  split_ifs with hsteps
  · obtain ⟨d, hd⟩ := h.exists_declared
    rw [hd, Option.map_some, (mem_of_declared? hd).2]
    exact iff_of_true rfl hsteps
  · refine iff_of_false (fun heq => ?_) hsteps
    obtain ⟨d, hd, hname⟩ := Option.map_eq_some_iff.1 heq
    exact name_ne_of_lookupPackage hd scope hname

/-- Declared types on the way to the first scope are different ones. -/
theorem steps_le (h : g.FirstScope reference source steps scope)
    (hdeclared : ∀ fewer < steps, ∀ other ∈ hop g.outerName fewer source, other ∈ g.typeNames) :
    steps ≤ g.declared.length := by
  have hget : ∀ k ≤ steps, (source :: follow g.outerName steps source)[k]? =
      hop g.outerName k source := by
    intro k hk
    rw [getElem?_follow, if_pos hk]
  obtain ⟨hlt, hlast⟩ := List.getElem?_eq_some_iff.1 ((hget steps le_rfl).trans h.reached)
  have hwalk : source :: follow g.outerName steps source =
      (source :: follow g.outerName steps source).take steps ++ [scope] := by
    have hle : (follow g.outerName steps source).length ≤ steps := length_follow_le _ _
    rw [← hlast, List.take_append_getElem, List.take_of_length_le (Nat.succ_le_succ hle)]
  have hmem : ∀ other ∈ (source :: follow g.outerName steps source).take steps,
      ∃ k < steps, hop g.outerName k source = some other := by
    intro other hother
    obtain ⟨k, hk⟩ := List.mem_iff_getElem?.1 hother
    rw [List.getElem?_take] at hk
    split_ifs at hk with hlt
    exact ⟨k, hlt, (hget k hlt.le).symm.trans hk⟩
  have hnodup := nodup_of_first (p := fun other => g.hasMember reference other = true) hwalk
    h.member fun other hother => by
      obtain ⟨k, hk, hhop⟩ := hmem other hother
      rw [h.inner k hk other hhop]
      exact Bool.false_ne_true
  have hsub : (source :: follow g.outerName steps source).take steps ⊆ g.typeNames := by
    intro other hother
    obtain ⟨k, hk, hhop⟩ := hmem other hother
    exact hdeclared k hk other hhop
  have hcard := (hnodup.of_append_left.subperm hsub).length_le
  rwa [List.length_take, min_eq_left hlt.le, typeNames, List.length_map] at hcard

end FirstScope

end Graph

/-! ## References while they are linked -/

/-- From some state the references of a declaration are linked, and one of them is looked up in
another state on the way. -/
inductive Linking.LooksUp (settings : Resolver) (d : Declaration) (start : Linking) :
    TypeName → Linking → Prop
  | superclass {reference : TypeName} (hclass : d.kind.isClass = true)
      (hreference : d.superclass = some reference) : LooksUp settings d start reference start
  | interface {reference : TypeName} {before after : List TypeName} {l l' : Linking}
      (hsuper : start.superclass settings d = .ok l)
      (hsplit : d.interfaces = before ++ reference :: after)
      (hbefore : before.foldlM (fun l reference => l.interface settings d reference) l = .ok l') :
      LooksUp settings d start reference l'
  | enclosing {reference : TypeName} {l l' : Linking}
      (hsuper : start.superclass settings d = .ok l)
      (hinterfaces :
        d.interfaces.foldlM (fun l reference => l.interface settings d reference) l = .ok l')
      (hreference : d.enclosingType = some reference) : LooksUp settings d start reference l'

/-- A graph in which a reference is looked up is linked as far as the references before it. -/
theorem Linked.of_looksUp {settings : Resolver} {declarations : List Declaration} {own : List Edge}
    {start l : Linking} (h : Linked settings declarations own start.graph) {d : Declaration}
    (hd : d ∈ declarations) {reference : TypeName}
    (hlook : Linking.LooksUp settings d start reference l) :
    ∃ own', Linked settings declarations own' l.graph := by
  have hinterfaces : ∀ {references : List TypeName} {l l' : Linking},
      references ⊆ d.interfaces → start.superclass settings d = .ok l →
      references.foldlM (fun l reference => l.interface settings d reference) l = .ok l' →
      ∃ own', Linked settings declarations own' l'.graph := by
    intro references l l' hsub hsuper hfold
    have hends := h.superclass_ends hd
    rw [hsuper] at hends
    obtain ⟨_, -, hlinked⟩ := hends
    have hends' := hlinked.interfaces_ends hd hsub
    rw [hfold] at hends'
    obtain ⟨_, -, hlinked'⟩ := hends'
    exact ⟨_, hlinked'⟩
  cases hlook with
  | superclass hclass hreference => exact ⟨own, h⟩
  | interface hsuper hsplit hbefore =>
    exact hinterfaces (hsplit ▸ List.subset_append_left _ _) hsuper hbefore
  | enclosing hsuper hfold hreference => exact hinterfaces (List.Subset.refl _) hsuper hfold

/-- While a declaration is linked, a reference that names no declared type is looked up as a member
of the first scope outwards that has one exactly if the steps to it are no more than the nodes at
that moment, and else in the package. The nodes are more than the declared types, so that no scope
is missed to which only declared types lead. -/
theorem lookup_firstScope {settings : Resolver} {declarations done : List Declaration}
    {d : Declaration} (hdone : done ++ [d] <+: declarations) {g : Graph} {start l : Linking}
    (hnew : Graph.ofDeclarations settings declarations = .ok g)
    (hrun : done.foldlM (Linking.declaration settings) ⟨g, []⟩ = .ok start) {reference : TypeName}
    (hlook : Linking.LooksUp settings d start reference l)
    (hundeclared : reference ∉ declarations.map (·.name)) {m : Nat} {outer : TypeName}
    (houter : hop g.outerName m d.name = some outer)
    (hmember : g.hasMember reference outer = true) :
    ∃ steps ≤ m, ∃ scope, g.FirstScope reference d.name steps scope ∧
      ((l.graph.lookup d.name reference).map (·.name) = some (TypeName.member scope reference) ↔
        steps ≤ l.graph.nodeCount) ∧
      (l.graph.nodeCount < steps →
        l.graph.lookup d.name reference = g.lookupPackage d.name reference) ∧
      declarations.length < l.graph.nodeCount ∧
      ((∀ fewer < steps, ∀ other ∈ hop g.outerName fewer d.name,
        other ∈ declarations.map (·.name)) → steps < l.graph.nodeCount) := by
  obtain ⟨hnamed, hunlinked⟩ | ⟨-, _, herror⟩ := Graph.ofDeclarations_spec settings declarations
  · obtain rfl := Except.ok.inj (hunlinked.symm.trans hnew)
    obtain ⟨links, -, hlinks⟩ :=
      partialLinkage_of_foldlM hnamed ((List.prefix_append done [d]).trans hdone) hrun
    have hd : d ∈ declarations := hdone.subset (by simp)
    obtain ⟨own, hlinked⟩ := hlinks.linked.of_looksUp hd hlook
    obtain ⟨steps, hsteps, scope, hfirst⟩ := Graph.exists_firstScope houter hmember
    have hfirst' : l.graph.FirstScope reference d.name steps scope :=
      hfirst.congr fun name => (hlinked.declared?_eq name).symm
    have hnone : l.graph.declared? reference = none := by
      rwa [Graph.declared?_eq_none_iff, hlinked.typeNames_eq]
    refine ⟨steps, hsteps, scope, hfirst, hfirst'.map_name_lookup_eq_iff hnone, fun hlt => ?_,
      hlinked.lt_nodeCount, fun hdeclared => ?_⟩
    · rw [hfirst'.lookup hnone, if_neg (Nat.not_le.2 hlt)]
      unfold Graph.lookupPackage
      simp only [hlinked.declared?_eq]
    · exact (hfirst.steps_le hdeclared).trans_lt hlinked.lt_nodeCount
  · exact nomatch herror.symm.trans hnew

/-- A class whose name implies outer types that nobody declares. Its interface is a member of a type
far outside and a type of the package as well; another class names an external type. -/
def farOut : List Declaration :=
  [{ name := "app.A", kind := .concreteClass },
    { name := "app.A$M", kind := .interface },
    { name := "app.M", kind := .interface },
    { name := "app.A$1$2$3$4$5$6$7", kind := .concreteClass, interfaces := ["M"] },
    { name := "app.B", kind := .concreteClass, interfaces := ["Runnable"] }]

/-- The interface is looked up right after the class is put under the root. -/
theorem looksUp_farOut (start : Linking) :
    Linking.LooksUp {} farOut[3] start "M"
      (start.join farOut[3].name .extension start.graph.root) :=
  .interface rfl (show ["M"] = [] ++ "M" :: [] from rfl) rfl

/-- Where the external type is named before, there are seven nodes, and the member is found. -/
theorem lookup_firstScope_reverse :
    ∃ g start l, Graph.ofDeclarations {} farOut.reverse = .ok g ∧
      (farOut.reverse.take 1).foldlM (Linking.declaration {}) ⟨g, []⟩ = .ok start ∧
      Linking.LooksUp {} farOut[3] start "M" l ∧
      (l.graph.lookup farOut[3].name "M").map (·.name) = some "app.A$M" := by
  have hfirst : (Graph.unlinked {} farOut.reverse).FirstScope "M" farOut[3].name 7 "app.A" := by
    decide +kernel
  have hnew : Graph.ofDeclarations {} farOut.reverse = .ok _ := rfl
  have hrun : (farOut.reverse.take 1).foldlM (Linking.declaration {})
      ⟨Graph.unlinked {} farOut.reverse, []⟩ = .ok _ := rfl
  obtain ⟨steps, -, scope, hscope, hiff, -⟩ :=
    lookup_firstScope (List.take_prefix 2 farOut.reverse) hnew hrun (looksUp_farOut _) (by decide)
      hfirst.reached hfirst.member
  obtain ⟨rfl, rfl⟩ := hfirst.unique hscope
  exact ⟨_, _, _, hnew, hrun, looksUp_farOut _, hiff.2 le_rfl⟩

/-- A member seven steps away is missed while the graph has six nodes, and the reference is linked
to the type of the package; in the other order of the declarations it is linked to the member. -/
theorem far_member_missed :
    (∃ g start l, Graph.ofDeclarations {} farOut = .ok g ∧
      (farOut.take 3).foldlM (Linking.declaration {}) ⟨g, []⟩ = .ok start ∧
      Linking.LooksUp {} farOut[3] start "M" l ∧ "M" ∉ farOut.map (·.name) ∧
      g.FirstScope "M" farOut[3].name 7 "app.A" ∧
      (l.graph.lookup farOut[3].name "M").map (·.name) = some "app.M") ∧
    ∃ h h', (Hierarchy.build {} farOut).value = .ok h ∧
      LinkedTo h.graph farOut[3] "M" "app.M" ∧
      (Hierarchy.build {} farOut.reverse).value = .ok h' ∧
      LinkedTo h'.graph farOut[3] "M" "app.A$M" := by
  have hbuild := Hierarchy.value_build_of_run
    (show Linking.run {} farOut = .ok _ from rfl) (by decide +kernel)
  have hreverse := Hierarchy.value_build_of_run
    (show Linking.run {} farOut.reverse = .ok _ from rfl) (by decide +kernel)
  refine ⟨⟨_, _, _, rfl, rfl, looksUp_farOut _, by decide, ?_, rfl⟩, _, _, hbuild,
    .interface (i := 0) rfl rfl, hreverse, .interface (i := 0) rfl rfl⟩
  decide +kernel

end Lineage
