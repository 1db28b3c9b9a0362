import Lineage.Declaration
import Lineage.Proofs.FirstOccurrences
import Mathlib.Data.List.TakeWhile

/-!
# Drafts that can be built

A draft is built exactly if it is well formed, and its declaration keeps all that it says, with
each method at its first place (`exists_build_iff`). Building goes through the methods once; what
it has kept at any time is the part read so far without repetitions (`Draft.settle_eq_ok_iff`).
-/

namespace Lineage

theorem trim_eq_empty_iff {s : String} : trim s = "" ↔ isBlankText s = true := by
  unfold trim isBlankText trimChars
  rw [String.ofList_eq_empty_iff, List.reverse_eq_nil_iff, List.dropWhile_eq_nil_iff,
    List.all_eq_true]
  constructor
  · intro hblank
    rw [← List.dropWhile_eq_nil_iff]
    by_contra hne
    obtain ⟨c, hc⟩ := Option.ne_none_iff_exists'.1 (mt List.head?_eq_none_iff.1 hne)
    have hnot := List.head?_dropWhile_not isBlank s.toList
    rw [hc] at hnot
    exact nomatch (hblank c (List.mem_reverse.2 (List.mem_of_head? hc))).symm.trans hnot
  · intro hblank c hc
    exact hblank c ((List.dropWhile_sublist _).subset (List.mem_reverse.1 hc))

theorem firstRepeated_eq_none_iff {seen xs : List TypeName} :
    firstRepeated seen xs = none ↔ xs.Nodup ∧ ∀ x ∈ xs, x ∉ seen := by
  induction xs generalizing seen with
  | nil => simp [firstRepeated]
  | cons x xs ih =>
    rw [firstRepeated]
    by_cases hx : x ∈ seen
    · rw [if_pos hx]
      exact iff_of_false (fun h => nomatch h) fun h => h.2 x List.mem_cons_self hx
    · rw [if_neg hx, ih, List.nodup_cons]
      grind

/-! ## Methods -/

/-- No signature is listed both with a body and without one. -/
def Method.Consistent (methods : List Method) : Prop :=
  ∀ s, ¬ (⟨s, true⟩ ∈ methods ∧ ⟨s, false⟩ ∈ methods)

namespace Method.Consistent

variable {methods : List Method}

theorem eq_of_signature (h : Consistent methods) {m n : Method} (hm : m ∈ methods)
    (hn : n ∈ methods) (hsignature : m.signature = n.signature) : m = n := by
  obtain ⟨s, a⟩ := m
  obtain ⟨t, b⟩ := n
  obtain rfl : s = t := hsignature
  cases a <;> cases b
  · rfl
  · exact absurd ⟨hn, hm⟩ (h s)
  · exact absurd ⟨hm, hn⟩ (h s)
  · rfl

theorem of_nodup (h : (methods.map (·.signature)).Nodup) : Consistent methods := fun _ ⟨hm, hn⟩ =>
  nomatch congrArg Method.isAbstract (List.inj_on_of_nodup_map h hm hn rfl)

theorem congr {others : List Method} (hmem : ∀ m, m ∈ methods ↔ m ∈ others) :
    Consistent methods ↔ Consistent others := by
  unfold Consistent
  simp only [hmem]

end Method.Consistent

/-- Listed at their first places, consistent methods have different signatures. -/
theorem Method.consistent_iff {methods : List Method} :
    Consistent methods ↔ (methods.eraseDups.map (·.signature)).Nodup := by
  constructor
  · exact fun h => (nodup_eraseDups methods).map_on fun _ hm _ hn =>
      h.eq_of_signature (List.mem_eraseDups.1 hm) (List.mem_eraseDups.1 hn)
  · exact fun h => (Consistent.congr fun _ => List.mem_eraseDups).1 (.of_nodup h)

instance (methods : List Method) : Decidable (Method.Consistent methods) :=
  decidable_of_iff _ Method.consistent_iff.symm

namespace Draft

/-- Going through methods keeps those that are new, as long as no name is blank and no signature
comes with the other body. -/
theorem settle_eq_ok_iff {kept rest methods : List Method}
    (hkept : (kept.map (·.signature)).Nodup) :
    (settle kept rest).methods = .ok methods ↔
      (∀ m ∈ rest, trim m.signature.name ≠ "") ∧ Method.Consistent (kept ++ rest) ∧
        methods = (kept ++ rest).eraseDups := by
  induction rest generalizing kept with
  | nil =>
    rw [List.append_nil, eraseDups_of_nodup (List.Nodup.of_map _ hkept)]
    refine ⟨fun h => ⟨fun m hm => (nomatch hm), .of_nodup hkept, (Except.ok.inj h).symm⟩, ?_⟩
    rintro ⟨-, -, rfl⟩
    rfl
  | cons m rest ih =>
    rw [settle, List.forall_mem_cons]
    by_cases hblank : isBlankText m.signature.name = true
    · rw [if_pos hblank]
      exact iff_of_false (fun h => nomatch h) fun h => h.1.1 (trim_eq_empty_iff.2 hblank)
    rw [if_neg hblank, and_iff_right (mt trim_eq_empty_iff.1 hblank)]
    cases hfind : kept.find? (·.signature = m.signature) with
    | none =>
      have hnew : ∀ n ∈ kept, n.signature ≠ m.signature := by
        simpa using hfind
      have hnodup : ((kept ++ [m]).map (·.signature)).Nodup := by
        rw [List.map_append, List.nodup_append']
        refine ⟨hkept, List.nodup_singleton _, fun s hs hsm => ?_⟩
        obtain ⟨n, hn, rfl⟩ := List.mem_map.1 hs
        exact hnew n hn (List.mem_singleton.1 hsm)
      rw [List.append_cons kept m rest]
      exact ih hnodup
    | some first =>
      have hfirst : first ∈ kept := List.mem_of_find?_eq_some hfind
      have hsignature : first.signature = m.signature := by
        simpa using List.find?_some hfind
      simp only []
      split_ifs with hbody
      · obtain rfl : first = m := by
          cases first
          cases m
          simp_all
        have hsame : ∀ n, n ∈ kept ++ rest ↔ n ∈ kept ++ first :: rest := by
          grind
        rw [eraseDups_append_cons_of_mem hfirst, ← Method.Consistent.congr hsame]
        exact ih hkept
      · refine iff_of_false (fun h => nomatch h) fun ⟨_, hconsistent, _⟩ => hbody ?_
        rw [hconsistent.eq_of_signature (List.mem_append_left _ hfirst)
          (List.mem_append_right _ List.mem_cons_self) hsignature]

/-! ## Well-formed drafts -/

/-- What a draft has to say to be built. -/
structure WellFormed (d : Draft) : Prop where
  name : trim d.name ≠ ""
  interface : d.kind = .interface → d.superclass = none
  superclass : ∀ s ∈ d.superclass, trim s ≠ ""
  interfaces : ∀ i ∈ d.interfaces, trim i ≠ ""
  nodup_interfaces : d.interfaces.Nodup
  enclosingType : d.enclosingType ≠ some (trim d.name)
  methodNames : ∀ m ∈ d.methods, trim m.signature.name ≠ ""
  consistent : Method.Consistent d.methods

theorem flaw?_eq_none_iff {d : Draft} :
    d.flaw? = none ↔ trim d.name ≠ "" ∧ (d.kind = .interface → d.superclass = none) ∧
      (∀ s ∈ d.superclass, trim s ≠ "") ∧ (∀ i ∈ d.interfaces, trim i ≠ "") ∧
      d.interfaces.Nodup ∧ d.enclosingType ≠ some (trim d.name) := by
  unfold flaw? declaredName
  by_cases hname : trim d.name = ""
  · rw [if_pos hname]
    exact iff_of_false (fun h => nomatch h) fun h => h.1 hname
  rw [if_neg hname, and_iff_right hname]
  split
  · next superclass hkind hsuper =>
    refine iff_of_false (fun h => nomatch h) fun h => ?_
    exact nomatch (h.1 hkind).symm.trans hsuper
  · next hother =>
    have hinterface : d.kind = .interface → d.superclass = none := by
      intro hkind
      cases hsuper : d.superclass with
      | none => rfl
      | some superclass => exact absurd hsuper (hother superclass hkind)
    have hblank : (d.superclass.any isBlankText || d.interfaces.any isBlankText) = false ↔
        (∀ s ∈ d.superclass, trim s ≠ "") ∧ ∀ i ∈ d.interfaces, trim i ≠ "" := by
      cases d.superclass <;> simp [trim_eq_empty_iff]
    have hrepeated : firstRepeated [] d.interfaces = none ↔ d.interfaces.Nodup := by
      rw [firstRepeated_eq_none_iff]
      exact and_iff_left fun _ _ => List.not_mem_nil
    rw [and_iff_right hinterface, ← and_assoc, ← hblank, ← hrepeated]
    cases d.superclass.any isBlankText || d.interfaces.any isBlankText with
    | true => exact iff_of_false (fun h => nomatch h) fun h => nomatch h.1
    | false =>
      rw [if_neg Bool.false_ne_true, and_iff_right rfl]
      cases firstRepeated [] d.interfaces with
      | some interface => exact iff_of_false (fun h => nomatch h) fun h => nomatch h.1
      | none => simp

theorem wellFormed_iff {d : Draft} :
    d.WellFormed ↔ d.flaw? = none ∧ (∀ m ∈ d.methods, trim m.signature.name ≠ "") ∧
      Method.Consistent d.methods := by
  rw [flaw?_eq_none_iff]
  constructor
  · intro h
    exact ⟨⟨h.name, h.interface, h.superclass, h.interfaces, h.nodup_interfaces, h.enclosingType⟩,
      h.methodNames, h.consistent⟩
  · rintro ⟨⟨hname, hinterface, hsuper, hinterfaces, hnodup, henclosing⟩, hmethods, hconsistent⟩
    exact ⟨hname, hinterface, hsuper, hinterfaces, hnodup, henclosing, hmethods, hconsistent⟩

instance (d : Draft) : Decidable d.WellFormed :=
  decidable_of_iff _ wellFormed_iff.symm

/-- The declaration of a draft, if it can be built. -/
def declaration (d : Draft) : Declaration where
  name := trim d.name
  kind := d.kind
  superclass := d.superclass
  interfaces := d.interfaces
  enclosingType := d.enclosingType
  methods := d.methods.eraseDups
  isFinal := d.isFinal

theorem build_eq_ok_iff_wellFormed {d : Draft} {c : Declaration} :
    d.build = .ok c ↔ d.WellFormed ∧ c = d.declaration := by
  rw [build_eq_ok_iff, wellFormed_iff, and_assoc]
  refine and_congr_right fun _ => ?_
  have hsettle : ∀ methods, (settle [] d.methods).methods = .ok methods ↔ _ :=
    fun methods => settle_eq_ok_iff List.nodup_nil
  simp only [hsettle, List.nil_append, and_assoc, exists_and_left, exists_eq_left]
  rfl

/-- Building leaves a draft as it is, but for its name and for methods listed again. -/
theorem declaration_toDraft (d : Draft) : d.declaration.toDraft =
    { d with name := trim d.name, methods := d.methods.eraseDups } :=
  rfl

theorem WellFormed.declaration {d : Draft} (h : d.WellFormed) :
    d.declaration.toDraft.WellFormed := by
  rw [declaration_toDraft]
  exact
    { name := by
        simp only [trim_trim]
        exact h.name
      interface := h.interface
      superclass := h.superclass
      interfaces := h.interfaces
      nodup_interfaces := h.nodup_interfaces
      enclosingType := by
        simp only [trim_trim]
        exact h.enclosingType
      methodNames := fun m hm => h.methodNames m (List.mem_eraseDups.1 hm)
      consistent := (Method.Consistent.congr fun _ => List.mem_eraseDups).2 h.consistent }

theorem declaration_toDraft_declaration (d : Draft) :
    d.declaration.toDraft.declaration = d.declaration := by
  rw [declaration_toDraft]
  unfold declaration
  simp only [trim_trim, eraseDups_of_nodup (nodup_eraseDups d.methods)]

end Draft

/-! ## Methods of declarations -/

namespace Declaration

variable {c : Declaration}

theorem abstracts_append_concretes_perm (c : Declaration) :
    (c.abstracts ++ c.concretes).Perm (c.methods.map (·.signature)) := by
  unfold abstracts concretes
  rw [← List.map_append]
  exact (List.filter_append_perm _ c.methods).map _

theorem declares_eq_some_iff (h : (c.methods.map (·.signature)).Nodup) {s : Signature} {b : Bool} :
    c.declares s = some b ↔ ∃ m ∈ c.methods, m.isAbstract = b ∧ m.signature = s := by
  unfold declares
  rw [Option.map_eq_some_iff]
  constructor
  · rintro ⟨m, hm, hb⟩
    exact ⟨m, List.mem_of_find?_eq_some hm, hb, by simpa using List.find?_some hm⟩
  · rintro ⟨m, hm, hb, rfl⟩
    cases hfind : c.methods.find? (·.signature = m.signature) with
    | none => exact absurd (List.find?_eq_none.1 hfind m hm) (by simp)
    | some n =>
      have hsignature : n.signature = m.signature := by
        simpa using List.find?_some hfind
      rw [List.inj_on_of_nodup_map h (List.mem_of_find?_eq_some hfind) hm hsignature]
      exact ⟨m, rfl, hb⟩

theorem declares_eq_none_iff {s : Signature} :
    c.declares s = none ↔ s ∉ c.methods.map (·.signature) := by
  unfold declares
  rw [Option.map_eq_none_iff, List.find?_eq_none]
  simp

end Declaration

/-! ## Building -/

/-- A draft is built exactly if it is well formed. The declaration says what the draft does, with
its name trimmed and each method at its first place; it tells its signatures apart by whether they
have a body, and building it again changes nothing. -/
theorem exists_build_iff (d : Draft) :
    ((∃ c, d.build = .ok c) ↔ d.WellFormed) ∧
    ∀ c, d.build = .ok c →
      c = { name := trim d.name, kind := d.kind, superclass := d.superclass,
            interfaces := d.interfaces, enclosingType := d.enclosingType,
            methods := d.methods.eraseDups, isFinal := d.isFinal } ∧
      (c.methods.map (·.signature)).Nodup ∧
      c.abstracts.Disjoint c.concretes ∧
      (c.abstracts ++ c.concretes).Perm (c.methods.map (·.signature)) ∧
      (∀ s, (c.declares s = some true ↔ s ∈ c.abstracts) ∧
        (c.declares s = some false ↔ s ∈ c.concretes) ∧
        (c.declares s = none ↔ s ∉ d.methods.map (·.signature))) ∧
      c.toDraft.build = .ok c := by
  simp only [Draft.build_eq_ok_iff_wellFormed]
  refine ⟨⟨fun ⟨_, h, _⟩ => h, fun h => ⟨_, h, rfl⟩⟩, ?_⟩
  rintro c ⟨h, rfl⟩
  have hnodup : (d.declaration.methods.map (·.signature)).Nodup :=
    Method.consistent_iff.1 h.consistent
  have hparts := d.declaration.abstracts_append_concretes_perm
  have hdisjoint := (List.nodup_append'.1 (hparts.nodup_iff.2 hnodup)).2.2
  refine ⟨rfl, hnodup, hdisjoint, hparts, fun s => ⟨?_, ?_, ?_⟩, h.declaration,
    (d.declaration_toDraft_declaration).symm⟩
  · rw [Declaration.declares_eq_some_iff hnodup, Declaration.mem_abstracts]
  · rw [Declaration.declares_eq_some_iff hnodup, Declaration.mem_concretes]
  · rw [Declaration.declares_eq_none_iff]
    simp [Draft.declaration]

/-- White space around a name, a method listed again, and a method of the same name with other
parameters. -/
def untidyDraft : Draft where
  name := " app.Job "
  kind := .abstractClass
  superclass := some "Base"
  interfaces := ["Runnable", "Closeable"]
  enclosingType := some " app.Job "
  methods := [⟨⟨"run", []⟩, true⟩, ⟨⟨"run", ["int"]⟩, false⟩, ⟨⟨"run", []⟩, true⟩]

theorem exists_build_untidyDraft :
    ∃ c, untidyDraft.build = .ok c ∧ c.name = "app.Job" ∧
      c.methods = [⟨⟨"run", []⟩, true⟩, ⟨⟨"run", ["int"]⟩, false⟩] ∧
      c.declares ⟨"run", []⟩ = some true ∧ c.declares ⟨"stop", []⟩ = none ∧
      c.toDraft.build = .ok c := by
  obtain ⟨hiff, hbuilt⟩ := exists_build_iff untidyDraft
  obtain ⟨c, hc⟩ := hiff.2 (by decide)
  obtain ⟨heq, -, -, -, hdeclares, hagain⟩ := hbuilt c hc
  subst heq
  exact ⟨_, hc, by decide, by decide, by decide, (hdeclares _).2.2.2 (by decide), hagain⟩

end Lineage
