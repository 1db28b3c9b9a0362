import Lineage.Graph.Link
import Lineage.Proofs.Walks
import Mathlib.Data.List.Nodup

/-!
# What references mean

The meaning of a reference depends on the declarations and the settings, and on nothing that linking
adds to a graph except the bound on the scopes tried (`Resolver.meaning`). Where the scopes around
a type are fewer than the bound, it does not depend on that either (`lookupWithin_stable`).
-/

namespace Lineage

/-! ## Declarations under their names -/

theorem find?_name_eq_some_iff {α : Type} {key : α → TypeName} {entries : List α}
    (hnodup : (entries.map key).Nodup) {name : TypeName} {x : α} :
    entries.find? (key · = name) = some x ↔ x ∈ entries ∧ key x = name := by
  constructor
  · intro h
    exact ⟨List.mem_of_find?_eq_some h, by simpa using List.find?_some h⟩
  · rintro ⟨hx, rfl⟩
    have hsome : (entries.find? (key · = key x)).isSome := by
      rw [List.find?_isSome]
      exact ⟨x, hx, decide_eq_true rfl⟩
    obtain ⟨y, hy⟩ := Option.isSome_iff_exists.1 hsome
    have hname : key y = key x := by simpa using List.find?_some hy
    rw [hy, List.inj_on_of_nodup_map hnodup (List.mem_of_find?_eq_some hy) hx hname]

namespace Graph

/-- The graph of some declarations before any reference is linked. -/
def unlinked (settings : Resolver) (declarations : List Declaration) : Graph where
  root := settings.rootType
  aliases := settings.rootAliases
  declared := declarations

@[simp]
theorem declared_unlinked (settings : Resolver) (declarations : List Declaration) :
    (unlinked settings declarations).declared = declarations := rfl

theorem declared?_isSome_iff {g : Graph} {name : TypeName} :
    (g.declared? name).isSome ↔ name ∈ g.typeNames := by
  unfold declared? typeNames
  rw [List.find?_isSome, List.mem_map]
  simp only [decide_eq_true_eq]

theorem declared?_eq_none_iff {g : Graph} {name : TypeName} :
    g.declared? name = none ↔ name ∉ g.typeNames := by
  rw [← declared?_isSome_iff, Bool.not_eq_true, Option.isSome_eq_false_iff,
    Option.isNone_iff_eq_none]

theorem mem_of_declared? {g : Graph} {name : TypeName} {d : Declaration}
    (h : g.declared? name = some d) : d ∈ g.declared ∧ d.name = name :=
  ⟨List.mem_of_find?_eq_some h, by simpa using List.find?_some h⟩

theorem mem_of_external? {g : Graph} {name : TypeName} {e : External}
    (h : g.external? name = some e) : e ∈ g.externals ∧ e.name = name :=
  ⟨List.mem_of_find?_eq_some h, by simpa using List.find?_some h⟩

theorem declared?_eq_some_iff {g : Graph} (hnodup : g.typeNames.Nodup) {name : TypeName}
    {d : Declaration} : g.declared? name = some d ↔ d ∈ g.declared ∧ d.name = name :=
  find?_name_eq_some_iff hnodup

theorem isRootName_eq {g : Graph} {settings : Resolver} (hroot : g.root = settings.rootType)
    (haliases : g.aliases = settings.rootAliases) (name : TypeName) :
    g.isRootName name = settings.isRoot name := by
  unfold isRootName Resolver.isRoot
  rw [hroot, haliases]
  congr 1
  exact decide_eq_decide.2 eq_comm

end Graph

namespace Resolver

/-- No two declarations share a name, and none has a name of the root. -/
structure WellNamed (settings : Resolver) (declarations : List Declaration) : Prop where
  nodup : (declarations.map (·.name)).Nodup
  noRoot : ∀ d ∈ declarations, settings.isRoot d.name = false

theorem isRoot_rootType (settings : Resolver) : settings.isRoot settings.rootType = true := by
  unfold isRoot
  rw [decide_eq_true rfl, Bool.true_or]

theorem WellNamed.rootType_not_mem {settings : Resolver} {declarations : List Declaration}
    (h : settings.WellNamed declarations) : settings.rootType ∉ declarations.map (·.name) := by
  intro hmem
  obtain ⟨d, hd, hname⟩ := List.mem_map.1 hmem
  have hroot := h.noRoot d hd
  rw [hname, isRoot_rootType] at hroot
  exact Bool.noConfusion hroot

end Resolver

namespace Graph

/-- Adds one more declaration to a graph that has no edges yet. -/
def declare (g : Graph) (d : Declaration) : Except StructureError Graph :=
  if g.isRootName d.name || (g.declared? d.name).isSome then .error (.duplicate d.name)
  else .ok { g with declared := g.declared ++ [d] }

theorem ofDeclarations_eq (settings : Resolver) (declarations : List Declaration) :
    ofDeclarations settings declarations =
      declarations.foldlM declare (unlinked settings []) := rfl

theorem declare_unlinked {settings : Resolver} {before : List Declaration} (d : Declaration) :
    (unlinked settings before).declare d =
      if settings.isRoot d.name = true ∨ d.name ∈ before.map (·.name) then
        .error (.duplicate d.name)
      else .ok (unlinked settings (before ++ [d])) := by
  unfold declare
  rw [show (unlinked settings before).isRootName d.name = settings.isRoot d.name from
    isRootName_eq rfl rfl d.name]
  have hiff :
      (settings.isRoot d.name || ((unlinked settings before).declared? d.name).isSome) = true ↔
        settings.isRoot d.name = true ∨ d.name ∈ before.map (·.name) := by
    rw [Bool.or_eq_true, declared?_isSome_iff]
    rfl
  simp only [hiff]
  rfl

theorem foldlM_declare {settings : Resolver} {before : List Declaration}
    (hbefore : settings.WellNamed before) (declarations : List Declaration) :
    (settings.WellNamed (before ++ declarations) ∧
      declarations.foldlM declare (unlinked settings before) =
        .ok (unlinked settings (before ++ declarations))) ∨
    (¬ settings.WellNamed (before ++ declarations) ∧ ∃ name,
      declarations.foldlM declare (unlinked settings before) = .error (.duplicate name)) := by
  induction declarations generalizing before with
  | nil =>
    rw [List.append_nil]
    exact Or.inl ⟨hbefore, rfl⟩
  | cons d ds ih =>
    rw [List.foldlM_cons, declare_unlinked]
    by_cases hbad : settings.isRoot d.name = true ∨ d.name ∈ before.map (·.name)
    · rw [if_pos hbad]
      refine Or.inr ⟨fun hall => ?_, d.name, rfl⟩
      rcases hbad with hroot | hmem
      · rw [hall.noRoot d (List.mem_append_right _ List.mem_cons_self)] at hroot
        exact nomatch hroot
      · have hnodup := hall.nodup
        rw [List.map_append, List.map_cons] at hnodup
        exact List.disjoint_of_nodup_append hnodup hmem List.mem_cons_self
    · rw [if_neg hbad]
      rw [not_or, Bool.not_eq_true] at hbad
      have hnext : settings.WellNamed (before ++ [d]) := by
        refine ⟨?_, fun c hc => ?_⟩
        · rw [List.map_append, List.map_singleton, ← List.concat_eq_append]
          exact hbefore.nodup.concat hbad.2
        · rcases List.mem_append.1 hc with hc | hc
          · exact hbefore.noRoot c hc
          · exact List.mem_singleton.1 hc ▸ hbad.1
      rw [List.append_cons]
      exact ih hnext

/-- Declarations make a graph unless two of them share a name or one has a name of the root. -/
theorem ofDeclarations_spec (settings : Resolver) (declarations : List Declaration) :
    (settings.WellNamed declarations ∧
      ofDeclarations settings declarations = .ok (unlinked settings declarations)) ∨
    (¬ settings.WellNamed declarations ∧ ∃ name,
      ofDeclarations settings declarations = .error (.duplicate name)) := by
  have hnil : settings.WellNamed [] := ⟨List.nodup_nil, fun d hd => absurd hd List.not_mem_nil⟩
  rw [ofDeclarations_eq]
  exact foldlM_declare hnil declarations

/-! ## Declared types in scope -/

/-- The search for a member goes along the scopes around a type. -/
theorem lookupMember_succ (g : Graph) (reference : TypeName) (bound : Nat) (scope : TypeName) :
    g.lookupMember reference (bound + 1) scope =
      (scope :: follow g.outerName bound scope).findSome? fun scope =>
        g.declared? (TypeName.member scope reference) := by
  induction bound generalizing scope with
  | zero =>
    rw [lookupMember, List.findSome?_cons]
    cases g.declared? (TypeName.member scope reference) with
    | some d => rfl
    | none => cases g.outerName scope <;> rfl
  | succ bound ih =>
    rw [lookupMember, List.findSome?_cons, follow_succ]
    cases g.declared? (TypeName.member scope reference) with
    | some d => rfl
    | none =>
      cases g.outerName scope with
      | none => rfl
      | some outer => exact ih outer

/-- `Graph.lookup` with a bound of its own on the scopes tried. -/
def lookupWithin (g : Graph) (bound : Nat) (source reference : TypeName) : Option Declaration :=
  ((g.declared? reference).or (g.lookupMember reference bound source)).or
    (g.lookupPackage source reference)

theorem lookup_eq_lookupWithin (g : Graph) (source reference : TypeName) :
    g.lookup source reference = g.lookupWithin (g.nodeCount + 1) source reference := rfl

section Declared

variable {g g' : Graph} (h : ∀ name, g.declared? name = g'.declared? name)

include h

theorem outerName_congr (name : TypeName) : g.outerName name = g'.outerName name := by
  unfold outerName
  rw [h name]

theorem lookupMember_congr (reference : TypeName) (bound : Nat) (scope : TypeName) :
    g.lookupMember reference bound scope = g'.lookupMember reference bound scope := by
  cases bound with
  | zero => rfl
  | succ bound =>
    rw [lookupMember_succ, lookupMember_succ, follow_congr (outerName_congr h)]
    simp only [h]

/-- Which declared type a reference means depends on the declarations alone. -/
theorem lookupWithin_congr (bound : Nat) (source reference : TypeName) :
    g.lookupWithin bound source reference = g'.lookupWithin bound source reference := by
  unfold lookupWithin lookupPackage
  rw [h reference, lookupMember_congr h]
  simp only [h]

end Declared

/-- With at most `N` scopes around a type, a bound of `N` or more makes no difference. -/
theorem lookupWithin_stable {g : Graph} {source : TypeName} {N : Nat}
    (hN : ∀ k, (source :: follow g.outerName k source).toFinset.card ≤ N) {m n : Nat} (hm : N ≤ m)
    (hn : N ≤ n) (reference : TypeName) :
    g.lookupWithin m source reference = g.lookupWithin n source reference := by
  have hpos : 0 < N := by
    have hone := hN 0
    rw [follow, List.toFinset_cons, List.toFinset_nil, insert_empty_eq,
      Finset.card_singleton] at hone
    exact hone
  obtain ⟨m, rfl⟩ := Nat.exists_eq_succ_of_ne_zero (show m ≠ 0 by omega)
  obtain ⟨n, rfl⟩ := Nat.exists_eq_succ_of_ne_zero (show n ≠ 0 by omega)
  unfold lookupWithin
  rw [lookupMember_succ, lookupMember_succ, findSome?_follow_stable hN hm hn]

theorem not_mem_of_lookupWithin {g : Graph} {bound : Nat} {source reference : TypeName}
    (h : g.lookupWithin bound source reference = none) : reference ∉ g.typeNames := by
  unfold lookupWithin at h
  rw [Option.or_eq_none_iff, Option.or_eq_none_iff] at h
  exact declared?_eq_none_iff.1 h.1.1

theorem mem_of_lookupWithin {g : Graph} {bound : Nat} {source reference : TypeName}
    {d : Declaration} (h : g.lookupWithin bound source reference = some d) : d ∈ g.declared := by
  unfold lookupWithin at h
  rcases Option.or_eq_some_iff.1 h with h | ⟨-, h⟩
  · rcases Option.or_eq_some_iff.1 h with h | ⟨-, h⟩
    · exact (mem_of_declared? h).1
    · cases bound with
      | zero => exact nomatch h
      | succ bound =>
        rw [lookupMember_succ] at h
        obtain ⟨-, scope, -, -, hscope, -⟩ := List.findSome?_eq_some_iff.1 h
        exact (mem_of_declared? hscope).1
  · unfold lookupPackage at h
    split at h
    · exact nomatch h
    · obtain ⟨package, -, hpackage⟩ := Option.bind_eq_some_iff.1 h
      exact (mem_of_declared? hpackage).1

end Graph

/-! ## Meanings -/

namespace Resolver

/-- Whether a name that means nothing else is taken for an external type. -/
def admits (settings : Resolver) (name : TypeName) : Bool :=
  settings.isExternal name || settings.allowUnresolved

/-- The name of the type that a supertype reference in the declaration of `source` means, when at
most `bound` scopes are tried. -/
def meaning (settings : Resolver) (declarations : List Declaration) (bound : Nat)
    (source reference : TypeName) : Option TypeName :=
  match (Graph.unlinked settings declarations).lookupWithin bound source reference with
  | some d => some d.name
  | none =>
    if settings.isRoot reference then some settings.rootType
    else if settings.admits reference then some reference
    else none

/-- A name outside the declarations that is no name of the root. -/
def Foreign (settings : Resolver) (declarations : List Declaration) (name : TypeName) : Prop :=
  name ∉ declarations.map (·.name) ∧ settings.isRoot name = false

/-- What a reference means is a declared type, the root, or an external type of its own name. -/
theorem meaning_cases {settings : Resolver} {declarations : List Declaration} {bound : Nat}
    {source reference target : TypeName}
    (h : settings.meaning declarations bound source reference = some target) :
    target ∈ declarations.map (·.name) ∨ target = settings.rootType ∨
      target = reference ∧ settings.Foreign declarations target := by
  unfold meaning at h
  cases hlookup : (Graph.unlinked settings declarations).lookupWithin bound source reference with
  | some d =>
    rw [hlookup] at h
    obtain rfl : d.name = target := Option.some.inj h
    exact Or.inl (List.mem_map_of_mem (Graph.mem_of_lookupWithin hlookup))
  | none =>
    simp only [hlookup] at h
    by_cases hroot : settings.isRoot reference = true
    · rw [if_pos hroot] at h
      exact Or.inr (Or.inl (Option.some.inj h).symm)
    · rw [if_neg hroot] at h
      split_ifs at h
      obtain rfl : reference = target := Option.some.inj h
      exact Or.inr (Or.inr ⟨rfl, Graph.not_mem_of_lookupWithin hlookup, by simpa using hroot⟩)

end Resolver

end Lineage
