import Lineage.Proofs.Fallible
import Lineage.Proofs.Faults

/-!
# Tolerated references

Linking under settings that tolerate references without a meaning, against linking under the same
settings that refuse them. The two go together as long as all external types are known to the
settings, and the first reference that is merely tolerated leaves one behind that is not
(`Conservative.refer`). So the strict run succeeds exactly if the lenient one does and ends with
known external types alone, and then both make the same graph (`run_eq_ok_iff`). What a lenient run
still cannot resolve is an enclosing type (`run_lenient_unresolved_iff`).
-/

namespace Lineage

/-- The same settings, but a reference that means nothing else is taken for an external type. -/
def Resolver.lenient (settings : Resolver) : Resolver :=
  { settings with allowUnresolved := true }

namespace Resolver

variable (settings : Resolver) (name : TypeName)

@[simp]
theorem isRoot_lenient : settings.lenient.isRoot name = settings.isRoot name := rfl

@[simp]
theorem isExternal_lenient : settings.lenient.isExternal name = settings.isExternal name := rfl

@[simp]
theorem allowUnresolved_lenient : settings.lenient.allowUnresolved = true := rfl

end Resolver

/-! ## One reference -/

namespace Graph

variable {settings : Resolver} {g : Graph} {source reference : TypeName}

/-- Tolerance makes a difference only to a reference that means nothing, and then no external type
of its name is known to the settings. -/
theorem resolve_lenient (settings : Resolver) (g : Graph) (source reference : TypeName) :
    (g.resolve settings source reference = .unresolved ∧
      settings.isExternal reference = false ∧
      g.resolve settings.lenient source reference = .tolerated) ∨
    (g.resolve settings source reference ≠ .unresolved ∧
      g.resolve settings.lenient source reference = g.resolve settings source reference) := by
  unfold resolve
  simp only [Resolver.isRoot_lenient, Resolver.isExternal_lenient,
    Resolver.allowUnresolved_lenient]
  cases g.lookup source reference with
  | some d => simp
  | none =>
    by_cases hroot : settings.isRoot reference = true
    · simp [hroot]
    · cases g.external? reference with
      | some entry => simp [hroot]
      | none =>
        by_cases hext : settings.isExternal reference = true <;>
          by_cases hallow : settings.allowUnresolved = true <;> simp [hroot, hext, hallow]

theorem isExternal_of_configured (h : g.resolve settings source reference = .configured) :
    settings.isExternal reference = true := by
  unfold resolve at h
  split at h
  · exact nomatch h
  · split at h
    · exact nomatch h
    · split at h
      · exact nomatch h
      · split_ifs at h with hext
        exact hext

theorem allowUnresolved_of_tolerated (h : g.resolve settings source reference = .tolerated) :
    settings.allowUnresolved = true := by
  unfold resolve at h
  split at h
  · exact nomatch h
  · split at h
    · exact nomatch h
    · split at h
      · exact nomatch h
      · split_ifs at h with _ hallow
        exact hallow

@[simp]
theorem externals_enter (g : Graph) (name : TypeName) (role : Role) :
    (g.enter name role).externals = g.externals ++ [⟨name, role⟩] := by
  cases role <;> rfl

@[simp]
theorem externals_reuse (g : Graph) (entry : External) (role : Role) :
    (g.reuse entry role).externals = g.externals := by
  rcases reuse_eq g role entry with h | h <;> rw [h]
  rfl

end Graph

namespace Linking

/-- Links one supertype reference of `source`, with the edge to what it means. -/
def refer (settings : Resolver) (source reference : TypeName) (role : Role) (l : Linking) :
    Except Failure Linking := do
  let (target, l) ← l.supertype settings source reference role
  .ok (l.join source role.edgeKind target)

theorem refer_congr {settings settings' : Resolver} {l : Linking} {source reference : TypeName}
    (h : l.graph.resolve settings source reference = l.graph.resolve settings' source reference)
    (role : Role) : l.refer settings source reference role =
      l.refer settings' source reference role := by
  unfold refer supertype
  simp only [h]

theorem externals_refer (settings : Resolver) (source reference : TypeName) (role : Role)
    (l : Linking) :
    match l.graph.resolve settings source reference with
    | .unresolved => ∃ f, l.refer settings source reference role = .error f
    | .configured | .tolerated => ∃ r, l.refer settings source reference role = .ok r ∧
        r.graph.externals = l.graph.externals ++ [⟨reference, role⟩]
    | _ => ∃ r, l.refer settings source reference role = .ok r ∧
        r.graph.externals = l.graph.externals := by
  unfold refer supertype
  cases hres : l.graph.resolve settings source reference <;> simp only [hres]
  case declared | root => exact ⟨_, rfl, rfl⟩
  case known entry => exact ⟨_, rfl, Graph.externals_reuse l.graph entry role⟩
  case configured | tolerated => exact ⟨_, rfl, Graph.externals_enter l.graph reference role⟩
  case unresolved => exact ⟨_, rfl⟩

/-! ## Steps in step -/

/-- All external types are known to the settings. -/
def Configured (settings : Resolver) (l : Linking) : Prop :=
  ∀ e ∈ l.graph.externals, settings.isExternal e.name = true

/-- A lenient step keeps the external types, and the strict step does the same exactly as long as
all of these are known to the settings. -/
structure Conservative (settings : Resolver) (strict lenient : Linking → Except Failure Linking) :
    Prop where
  grows : ∀ l r, lenient l = .ok r → l.graph.externals ⊆ r.graph.externals
  agrees : ∀ l r, l.Configured settings →
    (strict l = .ok r ↔ lenient l = .ok r ∧ r.Configured settings)

namespace Conservative

variable {settings : Resolver} {f f' g g' : Linking → Except Failure Linking}

/-- A step that settings have no part in, nor external types. -/
theorem of_externals (h : ∀ l r, f l = .ok r → r.graph.externals = l.graph.externals) :
    Conservative settings f f where
  grows l r hr := (h l r hr).symm ▸ List.Subset.refl _
  agrees l r hl := by
    refine (and_iff_left_of_imp fun hr => ?_).symm
    unfold Configured
    rw [h l r hr]
    exact hl

theorem bind (hf : Conservative settings f f') (hg : Conservative settings g g') :
    Conservative settings (fun l => f l >>= g) fun l => f' l >>= g' where
  grows l r hr := by
    obtain ⟨m, hm, hr⟩ := bind_eq_ok_iff.1 hr
    exact List.Subset.trans (hf.grows l m hm) (hg.grows m r hr)
  agrees l r hl := by
    simp only [bind_eq_ok_iff]
    constructor
    · rintro ⟨m, hm, hr⟩
      obtain ⟨hm', hconf⟩ := (hf.agrees l m hl).1 hm
      obtain ⟨hr', hall⟩ := (hg.agrees m r hconf).1 hr
      exact ⟨⟨m, hm', hr'⟩, hall⟩
    · rintro ⟨⟨m, hm', hr'⟩, hall⟩
      -- what is known at the end was known before the second step
      have hconf : m.Configured settings := fun e he => hall e (hg.grows m r hr' he)
      exact ⟨m, (hf.agrees l m hl).2 ⟨hm', hconf⟩, (hg.agrees m r hconf).2 ⟨hr', hall⟩⟩

theorem foldlM {α : Type} {f f' : Linking → α → Except Failure Linking}
    (h : ∀ a, Conservative settings (f · a) (f' · a)) (as : List α) :
    Conservative settings (as.foldlM f) (as.foldlM f') := by
  induction as with
  | nil =>
    refine of_externals fun l r hr => ?_
    obtain rfl : l = r := Except.ok.inj hr
    rfl
  | cons a as ih =>
    simp only [List.foldlM_cons]
    exact (h a).bind ih

/-- A tolerated reference leaves an external type behind that the settings do not know. -/
theorem refer (hstrict : settings.allowUnresolved = false) (source reference : TypeName)
    (role : Role) : Conservative settings (Linking.refer settings source reference role)
      (Linking.refer settings.lenient source reference role) where
  grows l r hr := by
    have hadds := externals_refer settings.lenient source reference role l
    split at hadds
    · obtain ⟨f, hf⟩ := hadds
      exact nomatch hf.symm.trans hr
    all_goals
      obtain ⟨r', hr', hexternals⟩ := hadds
      obtain rfl := Except.ok.inj (hr'.symm.trans hr)
      rw [hexternals]
      simp
  agrees l r hl := by
    have hadds := externals_refer settings source reference role l
    rcases Graph.resolve_lenient settings l.graph source reference with
      ⟨hnone, hunknown, htolerated⟩ | ⟨hne, heq⟩
    · rw [hnone] at hadds
      obtain ⟨f, hf⟩ := hadds
      have hlenient := externals_refer settings.lenient source reference role l
      rw [htolerated] at hlenient
      obtain ⟨r', hr', hexternals⟩ := hlenient
      rw [hf]
      refine iff_of_false (fun h => nomatch h) fun ⟨hr, hconf⟩ => ?_
      obtain rfl := Except.ok.inj (hr'.symm.trans hr)
      have hknown : settings.isExternal reference = true :=
        hconf ⟨reference, role⟩ (by rw [hexternals]; simp)
      rw [hunknown] at hknown
      exact nomatch hknown
    · rw [refer_congr heq]
      refine (and_iff_left_of_imp fun hr e he => ?_).symm
      split at hadds
      · exact absurd ‹_› hne
      · next hres =>
        obtain ⟨r', hr', hexternals⟩ := hadds
        obtain rfl := Except.ok.inj (hr'.symm.trans hr)
        rw [hexternals, List.mem_append, List.mem_singleton] at he
        rcases he with he | rfl
        · exact hl e he
        · exact Graph.isExternal_of_configured hres
      · next hres =>
        rw [Graph.allowUnresolved_of_tolerated hres] at hstrict
        exact nomatch hstrict
      · obtain ⟨r', hr', hexternals⟩ := hadds
        obtain rfl := Except.ok.inj (hr'.symm.trans hr)
        exact hl e (hexternals ▸ he)

end Conservative

/-! ## One declaration -/

theorem superclass_eq (settings : Resolver) (d : Declaration) :
    Linking.superclass settings d =
      if d.kind.isClass then
        match d.superclass with
        | none => fun l => .ok (l.join d.name .extension l.graph.root)
        | some reference => refer settings d.name reference .asClass
      else .ok := by
  funext l
  unfold superclass
  split_ifs
  · cases d.superclass <;> rfl
  · rfl

/-- Links the supertypes of a declaration: superclass, interfaces. -/
def supertypes (settings : Resolver) (d : Declaration) (l : Linking) : Except Failure Linking := do
  let l ← l.superclass settings d
  d.interfaces.foldlM (fun l reference => l.refer settings d.name reference .asInterface) l

theorem declaration_eq (settings : Resolver) (l : Linking) (d : Declaration) :
    declaration settings l d = l.supertypes settings d >>= enclosing d := by
  unfold declaration supertypes
  rw [bind_assoc]
  rfl

theorem externals_enclosing {d : Declaration} {l r : Linking} (h : l.enclosing d = .ok r) :
    r.graph.externals = l.graph.externals := by
  unfold enclosing at h
  split at h <;> split at h
  · obtain rfl := Except.ok.inj h
    rfl
  · exact nomatch h
  · obtain rfl := Except.ok.inj h
    rfl
  · obtain rfl := Except.ok.inj h
    rfl

namespace Conservative

variable {settings : Resolver} (hstrict : settings.allowUnresolved = false)

include hstrict

theorem superclass (d : Declaration) :
    Conservative settings (Linking.superclass settings d)
      (Linking.superclass settings.lenient d) := by
  rw [superclass_eq, superclass_eq]
  split_ifs
  · cases d.superclass with
    | none =>
      refine of_externals fun l r hr => ?_
      obtain rfl := Except.ok.inj hr
      rfl
    | some reference => exact refer hstrict d.name reference .asClass
  · refine of_externals fun l r hr => ?_
    obtain rfl := Except.ok.inj hr
    rfl

theorem declaration (d : Declaration) :
    Conservative settings (Linking.declaration settings · d)
      (Linking.declaration settings.lenient · d) := by
  simp only [declaration_eq]
  refine bind (bind (superclass hstrict d) ?_) (of_externals fun l r => externals_enclosing)
  exact foldlM (fun reference => refer hstrict d.name reference .asInterface) d.interfaces

end Conservative

/-! ## Whole runs -/

/-- Strict linking makes of some declarations what lenient linking does, provided that this ends
with external types that are all known to the settings. -/
theorem run_eq_ok_iff {settings : Resolver} (hstrict : settings.allowUnresolved = false)
    (declarations : List Declaration) (l : Linking) :
    run settings declarations = .ok l ↔
      run settings.lenient declarations = .ok l ∧ l.Configured settings := by
  unfold run
  rw [show Graph.ofDeclarations settings.lenient declarations =
    Graph.ofDeclarations settings declarations from rfl]
  rcases Graph.ofDeclarations_spec settings declarations with ⟨-, heq⟩ | ⟨-, name, heq⟩
  · rw [heq]
    have hnone : Configured settings ⟨Graph.unlinked settings declarations, []⟩ :=
      fun e he => absurd he List.not_mem_nil
    exact (Conservative.foldlM (Conservative.declaration hstrict) declarations).agrees _ l hnone
  · rw [heq]
    exact iff_of_false (fun h => nomatch h) fun h => nomatch h.1

/-! ## What stays unresolved -/

theorem exists_refer_lenient (settings : Resolver) (source reference : TypeName) (role : Role)
    (l : Linking) : ∃ r, l.refer settings.lenient source reference role = .ok r := by
  have hadds := externals_refer settings.lenient source reference role l
  split at hadds
  · next hres =>
    rcases Graph.resolve_lenient settings l.graph source reference with ⟨-, -, heq⟩ | ⟨hne, heq⟩
    · exact nomatch hres.symm.trans heq
    · exact absurd (heq.symm.trans hres) hne
  all_goals
    obtain ⟨r, hr, -⟩ := hadds
    exact ⟨r, hr⟩

theorem exists_supertypes_lenient (settings : Resolver) (d : Declaration) (l : Linking) :
    ∃ r, l.supertypes settings.lenient d = .ok r := by
  have hends : Ends (fun _ => False) (fun _ => True) (l.supertypes settings.lenient d) := by
    unfold supertypes
    have hclass : Ends (fun _ => False) (fun _ => True) (l.superclass settings.lenient d) := by
      rw [superclass_eq]
      split_ifs
      · cases d.superclass with
        | none => trivial
        | some reference =>
          obtain ⟨r, hr⟩ := exists_refer_lenient settings d.name reference .asClass l
          simp only [hr]
          trivial
      · trivial
    refine hclass.bind fun l' _ => Ends.foldlM_nil (fun _ _ => True) ?_ trivial
    intro done reference _ m _
    obtain ⟨r, hr⟩ := exists_refer_lenient settings d.name reference .asInterface m
    rw [hr]
    trivial
  cases hl : l.supertypes settings.lenient d with
  | ok r => exact ⟨r, rfl⟩
  | error f =>
    rw [hl] at hends
    exact hends.elim

theorem enclosing_eq_error_iff {d : Declaration} {l : Linking} {f : Failure} :
    l.enclosing d = .error f ↔ ∃ reference, d.enclosingType = some reference ∧
      l.graph.lookup d.name reference = none ∧ f = ⟨.unresolved reference d.name, l.events⟩ := by
  unfold enclosing
  cases htext : d.enclosingType with
  | none =>
    simp only []
    split <;> simp
  | some reference =>
    simp only [Option.some.injEq, exists_eq_left']
    cases l.graph.lookup d.name reference with
    | none => simp [eq_comm]
    | some outer => simp

/-- How far linking has got when it comes to the type around a declaration: all declarations before
it are linked, and so are its supertypes. -/
def AtOuter (settings : Resolver) (declarations : List Declaration) (d : Declaration)
    (l : Linking) : Prop :=
  ∃ before after g m, declarations = before ++ d :: after ∧
    Graph.ofDeclarations settings declarations = .ok g ∧
    before.foldlM (declaration settings) ⟨g, []⟩ = .ok m ∧ m.supertypes settings d = .ok l

/-- Lenient linking leaves a reference unresolved exactly if it comes to an enclosing type that a
declaration names and nobody declares. -/
theorem run_lenient_unresolved_iff (settings : Resolver) (declarations : List Declaration)
    (name source : TypeName) :
    (∃ f, run settings.lenient declarations = .error f ∧ f.error = .unresolved name source) ↔
      ∃ d l, AtOuter settings.lenient declarations d l ∧ d.name = source ∧
        d.enclosingType = some name ∧ l.graph.lookup source name = none := by
  constructor
  · rintro ⟨f, hrun, hf⟩
    unfold run at hrun
    cases hnew : Graph.ofDeclarations settings.lenient declarations with
    | error error =>
      rw [hnew] at hrun
      obtain rfl := Except.error.inj hrun
      rcases Graph.ofDeclarations_spec settings.lenient declarations with ⟨-, heq⟩ | ⟨-, _, heq⟩
      · exact nomatch heq.symm.trans hnew
      · exact nomatch (Except.error.inj (heq.symm.trans hnew)).trans hf
    | ok g =>
      rw [hnew] at hrun
      obtain ⟨before, d, after, m, hsplit, hbefore, hd⟩ := foldlM_eq_error_iff.1 hrun
      obtain ⟨l, hl⟩ := exists_supertypes_lenient settings d m
      rw [declaration_eq, hl] at hd
      obtain ⟨reference, htext, hlookup, rfl⟩ := enclosing_eq_error_iff.1 hd
      obtain ⟨rfl, rfl⟩ := StructureError.unresolved.inj hf
      exact ⟨d, l, ⟨before, after, g, m, hsplit, hnew, hbefore, hl⟩, rfl, htext, hlookup⟩
  · rintro ⟨d, l, ⟨before, after, g, m, hsplit, hnew, hbefore, hl⟩, rfl, htext, hlookup⟩
    refine ⟨⟨.unresolved name d.name, l.events⟩, ?_, rfl⟩
    unfold run
    rw [hnew]
    refine foldlM_eq_error_iff.2 ⟨before, d, after, m, hsplit, hbefore, ?_⟩
    rw [declaration_eq, hl]
    exact enclosing_eq_error_iff.2 ⟨name, htext, hlookup, rfl⟩

end Linking

theorem Hierarchy.value_build_unresolved_iff {settings : Resolver}
    {declarations : List Declaration} {name source : TypeName} :
    (build settings declarations).value = .error (.unresolved name source) ↔
      ∃ f, Linking.run settings declarations = .error f ∧ f.error = .unresolved name source := by
  rw [value_build]
  cases Linking.run settings declarations with
  | error f => simp
  | ok l =>
    simp only [reduceCtorEq, false_and, exists_false, iff_false]
    cases hfault : l.graph.fault? with
    | none => exact fun h => nomatch h
    | some error =>
      intro h
      obtain rfl := Except.error.inj h
      exact Graph.fault?_ne_unresolved name source hfault

/-- Strict settings link declarations exactly if lenient ones do and all external types are known to
the settings, and then to the same graph, so that the same hierarchy is built or the same fault
found. Lenient settings leave nothing unresolved but enclosing types that nobody declares. -/
theorem lenient_extends_strict {settings : Resolver} (hstrict : settings.allowUnresolved = false)
    (declarations : List Declaration) :
    (∀ l, Linking.run settings declarations = .ok l ↔
      Linking.run settings.lenient declarations = .ok l ∧
        ∀ e ∈ l.graph.externals, settings.isExternal e.name = true) ∧
    (∀ l, Linking.run settings declarations = .ok l →
      Hierarchy.build settings.lenient declarations = Hierarchy.build settings declarations) ∧
    ∀ name source,
      (Hierarchy.build settings.lenient declarations).value = .error (.unresolved name source) ↔
        ∃ d l, Linking.AtOuter settings.lenient declarations d l ∧ d.name = source ∧
          d.enclosingType = some name ∧ l.graph.lookup source name = none := by
  refine ⟨Linking.run_eq_ok_iff hstrict declarations, fun l hrun => ?_, fun name source => ?_⟩
  · have hlenient := ((Linking.run_eq_ok_iff hstrict declarations l).1 hrun).1
    unfold Hierarchy.build
    rw [hrun, hlenient]
  · rw [Hierarchy.value_build_unresolved_iff, Linking.run_lenient_unresolved_iff]

/-- A class over a type that nobody knows, perhaps inside another type. -/
def widget (outer : Option TypeName) : List Declaration :=
  [{ name := "app.Widget", kind := .concreteClass, superclass := some "Gadget",
      interfaces := ["Runnable"], enclosingType := outer }]

theorem lenient_extends_strict_widget :
    Resolver.allowUnresolved {} = false ∧
    (∃ l, Linking.run (Resolver.lenient {}) (widget none) = .ok l ∧
      l.graph.externals = [⟨"Gadget", .asClass⟩, ⟨"Runnable", .asInterface⟩] ∧
      Linking.run {} (widget none) ≠ .ok l) ∧
    (Hierarchy.build (Resolver.lenient {}) (widget (some "Panel"))).value =
      .error (.unresolved "Panel" "app.Widget") := by
  obtain ⟨hiff, -, -⟩ := @lenient_extends_strict {} rfl (widget none)
  obtain ⟨-, -, hunresolved⟩ := @lenient_extends_strict {} rfl (widget (some "Panel"))
  refine ⟨rfl, ⟨_, rfl, rfl, fun hrun => ?_⟩, ?_⟩
  · exact absurd (((hiff _).1 hrun).2 ⟨"Gadget", .asClass⟩ (by decide)) (by decide)
  · exact (hunresolved _ _).2 ⟨_, _, ⟨[], [], _, _, rfl, rfl, rfl, rfl⟩, rfl, rfl, rfl⟩

end Lineage
