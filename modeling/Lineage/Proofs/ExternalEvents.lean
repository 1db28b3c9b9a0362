import Lineage.Proofs.LenientRun
import Lineage.Proofs.MemberLookup
import Lineage.Proofs.NodeNames

/-!
# What is told about external types

Linking tells of an external type when a declaration names it for the first time, and again whenever
one names it in another role. So the log follows from the references to external types, taken in the
order of linking (`Mention.narrate`), and each reference adds to both at once
(`Told.supertype`). Every external type is announced exactly once, by the first declaration that
names it, and nothing else is, with the level and the words that the log has for it
(`externals_announced`).
-/

namespace Lineage

/-- A declaration names an external type as a supertype. -/
structure Mention where
  source : TypeName
  name : TypeName
  role : Role
  deriving DecidableEq, Repr

namespace Event

/-- Whether an event tells that a name now stands for an external type. -/
def announces (name : TypeName) : Event → Bool
  | resolvedExternal other _ | toleratedExternal other _ => other = name
  | _ => false

/-- Whether an event tells of an external type in another role than at first. -/
def isRoleConflict : Event → Bool
  | roleConflict .. => true
  | _ => false

/-- An event with its level and its message, as a log takes it. -/
def entry (e : Event) : Event × Level × String := (e, e.level, e.message)

theorem entry_of_builder {e : Event} (h : e.stage = .builder) :
    e.entry = (e, e.level, "[builder] " ++ e.text) := by
  unfold entry message
  rw [h]
  rfl

theorem entry_resolvedExternal (name : TypeName) (role : Role) :
    (resolvedExternal name role).entry = (.resolvedExternal name role, .debug,
      "[builder] '" ++ name ++ "' resolved as external " ++ role.phrase) := by
  have hopening : "[builder] '" = "[builder] " ++ "'" := by simp
  rw [entry_of_builder rfl, hopening]
  unfold text
  simp only [String.append_assoc]
  rfl

theorem entry_toleratedExternal (name source : TypeName) :
    (toleratedExternal name source).entry = (.toleratedExternal name source, .warn,
      "[builder] unresolved reference '" ++ name ++ "' in '" ++ source
        ++ "' treated as external") := by
  have hopening : "[builder] unresolved reference '" =
      "[builder] " ++ "unresolved reference '" := by simp
  rw [entry_of_builder rfl, hopening]
  unfold text
  simp only [String.append_assoc]
  rfl

theorem entry_roleConflict (name : TypeName) (role : Role) (source : TypeName) (first : Role) :
    (roleConflict name role source first).entry = (.roleConflict name role source first, .warn,
      "[builder] external type '" ++ name ++ "' used as " ++ role.phrase ++ " by '" ++ source
        ++ "' but first seen as " ++ first.phrase) := by
  have hopening : "[builder] external type '" = "[builder] " ++ "external type '" := by simp
  rw [entry_of_builder rfl, hopening]
  unfold text
  simp only [String.append_assoc]
  rfl

end Event

namespace Mention

/-- What is told when an external type is named for the first time. -/
def announcement (settings : Resolver) (m : Mention) : Event :=
  if settings.isExternal m.name then .resolvedExternal m.name m.role
  else .toleratedExternal m.name m.source

/-- What is told when an external type is named again, if its role is another one than at first. -/
def conflict? (m : Mention) (first : Role) : Option Event :=
  if first = m.role then none else some (.roleConflict m.name m.role m.source first)

/-- What is told about a reference to an external type, after others. -/
def events (settings : Resolver) (before : List Mention) (m : Mention) : List Event :=
  match before.find? (·.name = m.name) with
  | none => [m.announcement settings]
  | some first => (m.conflict? first.role).toList

/-- What is told about references to external types one after the other. -/
def narrate (settings : Resolver) (before : List Mention) : List Mention → List Event
  | [] => []
  | m :: ms => m.events settings before ++ narrate settings (before ++ [m]) ms

variable {settings : Resolver}

theorem announces_announcement (m : Mention) (name : TypeName) :
    (m.announcement settings).announces name = decide (m.name = name) := by
  unfold announcement
  split_ifs <;> rfl

theorem isRoleConflict_announcement (m : Mention) :
    (m.announcement settings).isRoleConflict = false := by
  unfold announcement
  split_ifs <;> rfl

theorem filter_announces_conflict? (m : Mention) (first : Role) (name : TypeName) :
    (m.conflict? first).toList.filter (·.announces name) = [] := by
  unfold conflict?
  split_ifs <;> rfl

theorem filter_isRoleConflict_conflict? (m : Mention) (first : Role) :
    (m.conflict? first).toList.filter (·.isRoleConflict) = (m.conflict? first).toList := by
  unfold conflict?
  split_ifs <;> rfl

theorem entry_announcement (m : Mention) :
    (m.announcement settings).entry =
      if settings.isExternal m.name then
        (.resolvedExternal m.name m.role, .debug,
          "[builder] '" ++ m.name ++ "' resolved as external " ++ m.role.phrase)
      else
        (.toleratedExternal m.name m.source, .warn,
          "[builder] unresolved reference '" ++ m.name ++ "' in '" ++ m.source
            ++ "' treated as external") := by
  unfold announcement
  split_ifs
  · exact Event.entry_resolvedExternal m.name m.role
  · exact Event.entry_toleratedExternal m.name m.source

theorem map_entry_conflict? (m : Mention) (first : Role) :
    (m.conflict? first).map (·.entry) =
      if first = m.role then none
      else
        some (.roleConflict m.name m.role m.source first, .warn,
          "[builder] external type '" ++ m.name ++ "' used as " ++ m.role.phrase ++ " by '"
            ++ m.source ++ "' but first seen as " ++ first.phrase) := by
  unfold conflict?
  split_ifs
  · rfl
  · exact congrArg some (Event.entry_roleConflict m.name m.role m.source first)

theorem narrate_concat (before ms : List Mention) (m : Mention) :
    narrate settings before (ms ++ [m]) =
      narrate settings before ms ++ m.events settings (before ++ ms) := by
  induction ms generalizing before with
  | nil => simp [narrate]
  | cons n ms ih => simp [narrate, ih]

/-- A name is announced by the first reference to it, unless that came before. -/
theorem filter_announces_narrate (before ms : List Mention) (name : TypeName) :
    (narrate settings before ms).filter (·.announces name) =
      match before.find? (·.name = name) with
      | none => ((ms.find? (·.name = name)).map (·.announcement settings)).toList
      | some _ => [] := by
  induction ms generalizing before with
  | nil => cases before.find? (·.name = name) <;> rfl
  | cons m ms ih =>
    rw [narrate, List.filter_append, ih, List.find?_append, List.find?_singleton, List.find?_cons]
    unfold events
    by_cases hname : m.name = name
    · subst hname
      cases before.find? (·.name = m.name) with
      | none => simp [announces_announcement]
      | some first => simp [filter_announces_conflict?]
    · cases before.find? (·.name = m.name) <;> cases before.find? (·.name = name) <;>
        simp [hname, announces_announcement, filter_announces_conflict?]

/-- Every reference in another role than the first one to the same name is told. -/
theorem filter_isRoleConflict_narrate (before ms : List Mention) :
    (narrate settings before ms).filter (·.isRoleConflict) =
      ms.filterMap fun m =>
        ((before ++ ms).find? (·.name = m.name)).bind (m.conflict? ·.role) := by
  induction ms generalizing before with
  | nil => rfl
  | cons m ms ih =>
    rw [narrate, List.filter_append, ih, List.filterMap_cons, List.append_cons before m ms]
    unfold events
    have hfirst : ((before ++ [m] ++ ms).find? (·.name = m.name)) =
        ((before.find? (·.name = m.name)).getD m) := by
      rw [List.append_assoc, List.find?_append, List.singleton_append,
        List.find?_cons_of_pos (by simp)]
      cases before.find? (·.name = m.name) <;> rfl
    rw [hfirst, Option.bind_some]
    cases before.find? (·.name = m.name) with
    | none =>
      rw [Option.getD_none, show m.conflict? m.role = none from if_pos rfl]
      simp [isRoleConflict_announcement]
    | some first =>
      rw [Option.getD_some]
      simp only [filter_isRoleConflict_conflict?]
      cases m.conflict? first.role <;> rfl

end Mention

/-! ## References to external types -/

theorem Graph.not_isExternal_of_tolerated {settings : Resolver} {g : Graph}
    {source reference : TypeName} (h : g.resolve settings source reference = .tolerated) :
    ¬ settings.isExternal reference = true := by
  unfold resolve at h
  split at h
  · exact nomatch h
  · split at h
    · exact nomatch h
    · split at h
      · exact nomatch h
      · split_ifs at h with hext
        exact hext

theorem Linking.eq_of_enclosing {d : Declaration} {l l' : Linking} (h : l.enclosing d = .ok l') :
    l' = l ∨ ∃ outer, l' = l.join outer .enclosure d.name := by
  unfold enclosing at h
  split at h <;> split at h
  · exact Or.inr ⟨_, (Except.ok.inj h).symm⟩
  · exact nomatch h
  · exact Or.inr ⟨_, (Except.ok.inj h).symm⟩
  · exact Or.inl (Except.ok.inj h).symm

instance (settings : Resolver) (declarations : List Declaration) (name : TypeName) :
    Decidable (settings.Foreign declarations name) :=
  inferInstanceAs (Decidable (_ ∧ _))

/-- The reference that an edge between subtype and supertype stands for. -/
def Edge.mention? (e : Edge) : Option Mention :=
  match e.kind with
  | .extension => some ⟨e.source, e.target, .asClass⟩
  | .implementation => some ⟨e.source, e.target, .asInterface⟩
  | .enclosure => none

/-- The references to external types among the edges that declarations own. -/
def foreignMentions (settings : Resolver) (declarations : List Declaration) (own : List Edge) :
    List Mention :=
  (own.filterMap Edge.mention?).filter (settings.Foreign declarations ·.name)

variable {settings : Resolver} {declarations : List Declaration} {own : List Edge}

theorem mention?_role (source target : TypeName) (role : Role) :
    Edge.mention? ⟨source, role.edgeKind, target⟩ = some ⟨source, target, role⟩ := by
  cases role <;> rfl

theorem foreignMentions_concat (e : Edge) :
    foreignMentions settings declarations (own ++ [e]) =
      foreignMentions settings declarations own ++
        e.mention?.toList.filter (settings.Foreign declarations ·.name) := by
  unfold foreignMentions
  rw [List.filterMap_append, List.filter_append]
  cases h : e.mention? <;> simp [h]

/-- An edge to a declared type, to the root, or around a type is no reference to an external one. -/
theorem foreignMentions_concat_eq {source target : TypeName} {kind : EdgeKind}
    (h : (∃ role : Role, role.edgeKind = kind) → ¬ settings.Foreign declarations target) :
    foreignMentions settings declarations (own ++ [⟨source, kind, target⟩]) =
      foreignMentions settings declarations own := by
  rw [foreignMentions_concat]
  cases kind with
  | extension => simp [Edge.mention?, h ⟨.asClass, rfl⟩]
  | implementation => simp [Edge.mention?, h ⟨.asInterface, rfl⟩]
  | enclosure => simp [Edge.mention?]

theorem foreignMentions_concat_foreign {source target : TypeName} {role : Role}
    (h : settings.Foreign declarations target) :
    foreignMentions settings declarations (own ++ [⟨source, role.edgeKind, target⟩]) =
      foreignMentions settings declarations own ++ [⟨source, target, role⟩] := by
  rw [foreignMentions_concat, mention?_role]
  simp [h]

/-- What is told so far, and the external types so far, follow from the references linked so far. -/
structure Told (settings : Resolver) (declarations : List Declaration) (own : List Edge)
    (l : Linking) : Prop where
  events : l.events = Mention.narrate settings [] (foreignMentions settings declarations own)
  entries : ∀ name, l.graph.external? name =
    ((foreignMentions settings declarations own).find? (·.name = name)).map fun m =>
      ⟨m.name, m.role⟩

namespace Told

variable {l : Linking} {source reference target : TypeName} {role : Role} {kind : EdgeKind}

theorem join (h : Told settings declarations own l) :
    Told settings declarations own (l.join source kind target) :=
  ⟨h.events, h.entries⟩

theorem pass (h : Told settings declarations own l)
    (htarget : (∃ role : Role, role.edgeKind = kind) → ¬ settings.Foreign declarations target) :
    Told settings declarations (own ++ [⟨source, kind, target⟩]) l where
  events := by
    rw [foreignMentions_concat_eq htarget]
    exact h.events
  entries := by
    rw [foreignMentions_concat_eq htarget]
    exact h.entries

theorem again (h : Told settings declarations own l) (source : TypeName) (role : Role)
    (hforeign : settings.Foreign declarations target) {entry : External}
    (hentry : l.graph.external? target = some entry) (g : Graph)
    (hg : g.externals = l.graph.externals) :
    Told settings declarations (own ++ [⟨source, role.edgeKind, target⟩])
      ⟨g, l.events ++ ((⟨source, target, role⟩ : Mention).conflict? entry.role).toList⟩ where
  events := by
    rw [foreignMentions_concat_foreign hforeign, Mention.narrate_concat, ← h.events]
    obtain ⟨first, hfirst, rfl⟩ := Option.map_eq_some_iff.1 ((h.entries target).symm.trans hentry)
    unfold Mention.events
    rw [List.nil_append, hfirst]
  entries name := by
    show g.external? name = _
    rw [foreignMentions_concat_foreign hforeign, List.find?_append, List.find?_singleton]
    unfold Graph.external? at hentry ⊢
    rw [hg, ← Graph.external?, h.entries name]
    by_cases hname : target = name
    · subst hname
      rw [← Graph.external?, h.entries target] at hentry
      obtain ⟨first, hfirst, -⟩ := Option.map_eq_some_iff.1 hentry
      rw [hfirst]
      rfl
    · simp [hname]

/-- One more reference to an external type, which joins the graph. -/
theorem anew (h : Told settings declarations own l) (source : TypeName) (role : Role)
    (hforeign : settings.Foreign declarations target)
    (hentry : l.graph.external? target = none) :
    Told settings declarations (own ++ [⟨source, role.edgeKind, target⟩])
      ⟨l.graph.enter target role,
        l.events ++ [(⟨source, target, role⟩ : Mention).announcement settings]⟩ where
  events := by
    rw [foreignMentions_concat_foreign hforeign, Mention.narrate_concat, ← h.events]
    have hfirst := Option.map_eq_none_iff.1 ((h.entries target).symm.trans hentry)
    unfold Mention.events
    rw [List.nil_append, hfirst]
  entries name := by
    have hexternals : (l.graph.enter target role).external? name =
        (l.graph.external? name).or (if target = name then some ⟨target, role⟩ else none) := by
      unfold Graph.external?
      rw [Graph.externals_enter, List.find?_append, List.find?_singleton]
      simp
    show (l.graph.enter target role).external? name = _
    rw [hexternals, h.entries name, foreignMentions_concat_foreign hforeign, List.find?_append,
      List.find?_singleton, Option.map_or]
    by_cases hname : target = name <;> simp [hname]

/-- A reference that is linked is told, if it is one to an external type. -/
theorem supertype (h : Told settings declarations own l)
    (hlinked : Linked settings declarations own l.graph) {l' : Linking}
    (hrun : l.supertype settings source reference role = .ok (target, l')) :
    Told settings declarations (own ++ [⟨source, role.edgeKind, target⟩]) l' := by
  have hagrees := hlinked.agrees_resolve source reference
  unfold Linking.supertype at hrun
  cases hresolve : l.graph.resolve settings source reference with
  | declared name =>
    rw [hresolve] at hagrees
    simp only [hresolve] at hrun
    obtain ⟨rfl, rfl⟩ := Prod.mk.inj (Except.ok.inj hrun)
    exact h.pass fun _ hforeign => hforeign.1 hagrees.1
  | root =>
    simp only [hresolve] at hrun
    obtain ⟨rfl, rfl⟩ := Prod.mk.inj (Except.ok.inj hrun)
    exact h.pass fun _ => hlinked.not_foreign_root
  | known entry =>
    rw [hresolve] at hagrees
    simp only [hresolve] at hrun
    obtain ⟨-, hforeign, -, hentry⟩ := hagrees
    obtain ⟨-, rfl⟩ := Graph.mem_of_external? hentry
    obtain ⟨rfl, rfl⟩ := Prod.mk.inj (Except.ok.inj hrun)
    have htold := h.again source role hforeign hentry (l.graph.reuse entry role)
      (Graph.externals_reuse l.graph entry role)
    unfold Mention.conflict? at htold
    split_ifs at htold ⊢ <;> exact htold
  | configured =>
    rw [hresolve] at hagrees
    simp only [hresolve] at hrun
    obtain ⟨-, hforeign, -, hentry⟩ := hagrees
    obtain ⟨rfl, rfl⟩ := Prod.mk.inj (Except.ok.inj hrun)
    have htold := h.anew source role hforeign hentry
    rw [Mention.announcement, if_pos (Graph.isExternal_of_configured hresolve)] at htold
    exact htold
  | tolerated =>
    rw [hresolve] at hagrees
    simp only [hresolve] at hrun
    obtain ⟨-, hforeign, -, hentry⟩ := hagrees
    obtain ⟨rfl, rfl⟩ := Prod.mk.inj (Except.ok.inj hrun)
    have htold := h.anew source role hforeign hentry
    rw [Mention.announcement, if_neg (Graph.not_isExternal_of_tolerated hresolve)] at htold
    exact htold
  | unresolved =>
    simp only [hresolve] at hrun
    exact nomatch hrun

end Told

/-! ## Runs -/

/-- A graph that is linked so far, and what was told about its external types. -/
def Recorded (settings : Resolver) (declarations : List Declaration) (l : Linking) : Prop :=
  ∃ own, Linked settings declarations own l.graph ∧ Told settings declarations own l

namespace Recorded

variable {l : Linking} {d : Declaration}

theorem refer (h : Recorded settings declarations l) {source : TypeName}
    (hsource : source ∈ declarations.map (·.name)) (reference : TypeName) (role : Role) :
    Ends (fun _ => True) (Recorded settings declarations)
      (l.refer settings source reference role) := by
  obtain ⟨own, hlinked, htold⟩ := h
  have hends := hlinked.supertype_ends hsource reference role
  unfold Linking.refer
  cases hrun : l.supertype settings source reference role with
  | error f => trivial
  | ok r =>
    rw [hrun] at hends
    exact ⟨_, hends.2, (htold.supertype hlinked hrun).join⟩

theorem superclass (h : Recorded settings declarations l) (hd : d ∈ declarations) :
    Ends (fun _ => True) (Recorded settings declarations) (l.superclass settings d) := by
  have hsource : d.name ∈ declarations.map (·.name) := List.mem_map_of_mem hd
  rw [Linking.superclass_eq]
  split_ifs
  · cases d.superclass with
    | none =>
      obtain ⟨own, hlinked, htold⟩ := h
      have hroot : (∃ role : Role, role.edgeKind = .extension) →
          ¬ settings.Foreign declarations l.graph.root := fun _ => hlinked.not_foreign_root
      exact ⟨_, hlinked.join hsource hroot, (htold.pass hroot).join⟩
    | some reference => exact h.refer hsource reference .asClass
  · exact h

theorem enclosing (h : Recorded settings declarations l) (hd : d ∈ declarations) :
    Ends (fun _ => True) (Recorded settings declarations) (l.enclosing d) := by
  obtain ⟨own, hlinked, htold⟩ := h
  have hends := hlinked.enclosing_ends hd
  cases hrun : l.enclosing d with
  | error f => trivial
  | ok l' =>
    rw [hrun] at hends
    obtain ⟨outer, -, hlinked'⟩ := hends
    refine ⟨_, hlinked', ?_⟩
    have htold' : Told settings declarations own l' := by
      rcases Linking.eq_of_enclosing hrun with rfl | ⟨name, rfl⟩
      · exact htold
      · exact htold.join
    cases outer with
    | none =>
      rw [Option.toList_none, List.map_nil, List.append_nil]
      exact htold'
    | some name => exact htold'.pass fun ⟨role, hrole⟩ => by cases role <;> exact nomatch hrole

theorem declaration (h : Recorded settings declarations l) (hd : d ∈ declarations) :
    Ends (fun _ => True) (Recorded settings declarations) (Linking.declaration settings l d) := by
  have hsupertypes : Ends (fun _ => True) (Recorded settings declarations)
      (l.supertypes settings d) := by
    unfold Linking.supertypes
    refine (h.superclass hd).bind fun l' h' => ?_
    refine Ends.foldlM_nil (fun _ => Recorded settings declarations) ?_ h'
    intro _ reference _ l'' h''
    exact h''.refer (List.mem_map_of_mem hd) reference .asInterface
  rw [Linking.declaration_eq]
  exact hsupertypes.bind fun l' h' => h'.enclosing hd

/-- A run that ends well is recorded. -/
theorem of_run (hrun : Linking.run settings declarations = .ok l) :
    Recorded settings declarations l := by
  unfold Linking.run at hrun
  rcases Graph.ofDeclarations_spec settings declarations with ⟨-, heq⟩ | ⟨-, _, heq⟩
  · have hnone : Recorded settings declarations ⟨Graph.unlinked settings declarations, []⟩ :=
      ⟨[], Linked.unlinked settings declarations, rfl, fun _ => rfl⟩
    have hends : Ends (fun _ => True) (Recorded settings declarations)
        (declarations.foldlM (Linking.declaration settings)
          ⟨Graph.unlinked settings declarations, []⟩) :=
      Ends.foldlM_nil (fun _ => Recorded settings declarations)
        (fun _ d hd _ h => h.declaration hd) hnone
    simp only [heq] at hrun
    rw [hrun] at hends
    exact hends
  · simp only [heq] at hrun
    exact nomatch hrun

end Recorded

/-! ## References in a linked graph -/

namespace Graph

/-- The supertypes of a declared type with their roles, in the order of its references. -/
def mentions (g : Graph) (d : Declaration) : List Mention :=
  (g.targets d.name .extension).map (⟨d.name, ·, .asClass⟩) ++
    (g.targets d.name .implementation).map (⟨d.name, ·, .asInterface⟩)

/-- All references to external types, in the order of linking. -/
def externalMentions (g : Graph) : List Mention :=
  (g.declared.flatMap g.mentions).filter (·.name ∈ g.externals.map (·.name))

theorem mem_mentions {g : Graph} {d : Declaration} {m : Mention} : m ∈ g.mentions d ↔
    m.source = d.name ∧ m.name ∈ g.targets d.name m.role.edgeKind := by
  unfold mentions
  rw [List.mem_append, List.mem_map, List.mem_map]
  obtain ⟨source, name, role⟩ := m
  cases role <;> simp [Role.edgeKind, and_comm, eq_comm]

end Graph

namespace Linkage

variable {links : List (Declaration × Links)} {g : Graph} {d : Declaration}

/-- A mention of an external type is a reference that is linked to it. -/
theorem exists_linkedTo_of_mention (h : Linkage settings declarations links g)
    (hd : d ∈ declarations) {m : Mention} (hm : m ∈ g.mentions d)
    (hforeign : settings.Foreign declarations m.name) :
    LinkedTo g d m.name m.name := by
  obtain ⟨k, hk⟩ := h.exists_links hd
  have hreads := h.reads _ hk
  obtain ⟨-, htarget⟩ := Graph.mem_mentions.1 hm
  have hroot : m.name ≠ settings.rootType := by
    intro heq
    exact h.linked.not_foreign_root (h.linked.root ▸ heq ▸ hforeign)
  cases hrole : m.role with
  | asClass =>
    rw [hrole, Role.edgeKind, h.targets_extension hk, Option.mem_toList] at htarget
    have hmeans := hreads.superclass
    rw [htarget] at hmeans
    obtain ⟨hclass, hmem | heq | ⟨hsuper, -⟩⟩ := hmeans.target_cases
    · exact absurd hmem hforeign.1
    · exact absurd heq hroot
    · exact .superclass hclass hsuper ((h.superclass?_eq hk).trans htarget)
  | asInterface =>
    rw [hrole, Role.edgeKind] at htarget
    obtain ⟨i, hi, heq⟩ := List.getElem_of_mem htarget
    rw [h.targets_implementation hk] at hi
    have hi' : i < d.interfaces.length := hreads.interfaces.length_eq ▸ hi
    obtain ⟨_, -, -, hmeaning⟩ := hreads.interfaces.get hi' hi
    have hname : k.interfaces[i] = m.name := by
      simp only [h.targets_implementation hk] at heq
      exact heq
    rw [List.get_eq_getElem, List.get_eq_getElem, hname] at hmeaning
    rcases Resolver.meaning_cases hmeaning with hmem | hmem | ⟨hreference, -⟩
    · exact absurd hmem hforeign.1
    · exact absurd hmem hroot
    · refine .interface (i := i) (hreference ▸ List.getElem?_eq_getElem hi') ?_
      rw [h.targets_implementation hk, List.getElem?_eq_getElem hi, hname]

theorem mention_of_linkedTo {reference target : TypeName} (h : LinkedTo g d reference target) :
    ∃ role, ⟨d.name, target, role⟩ ∈ g.mentions d := by
  cases h with
  | superclass _ _ htarget =>
    refine ⟨.asClass, Graph.mem_mentions.2 ⟨rfl, ?_⟩⟩
    rw [Graph.superclass?_eq_head?] at htarget
    exact List.mem_of_head? htarget
  | interface _ htarget =>
    exact ⟨.asInterface, Graph.mem_mentions.2 ⟨rfl, List.mem_of_getElem? htarget⟩⟩

theorem foreignMentions_eq (h : Linkage settings declarations links g) :
    foreignMentions settings declarations (ownEdges links) = g.externalMentions := by
  have hmentions : (ownEdges links).filterMap Edge.mention? = g.declared.flatMap g.mentions := by
    rw [h.linked.declared, ← h.fst_eq, List.flatMap_map, ownEdges, List.filterMap_flatMap]
    refine List.flatMap_congr fun p hp => ?_
    unfold Graph.mentions Links.edges
    rw [h.targets_extension hp, h.targets_implementation hp]
    simp [List.filterMap_append, List.filterMap_map, Function.comp_def, Edge.mention?]
  unfold foreignMentions Graph.externalMentions
  rw [← hmentions]
  refine List.filter_congr fun m hm => decide_eq_decide.2 ?_
  rw [h.linked.mem_externals]
  refine (and_iff_left ?_).symm
  obtain ⟨⟨source, kind, target⟩, he, hmention⟩ := List.mem_filterMap.1 hm
  cases kind with
  | extension =>
    obtain rfl := Option.some.inj hmention
    exact ⟨source, .asClass, he⟩
  | implementation =>
    obtain rfl := Option.some.inj hmention
    exact ⟨source, .asInterface, he⟩
  | enclosure => exact absurd hmention.symm (Option.some_ne_none m)

/-- The first reference to an external type belongs to the first declaration that names it. -/
theorem first_mention (h : Linkage settings declarations links g) {m : Mention} {name : TypeName}
    (hforeign : settings.Foreign declarations name)
    (hm : g.externalMentions.find? (·.name = name) = some m) :
    m.name = name ∧ ∃ before d after, declarations = before ++ d :: after ∧ m.source = d.name ∧
      LinkedTo g d name name ∧ ∀ e ∈ before, ∀ reference, ¬ LinkedTo g e reference name := by
  obtain rfl : m.name = name := by simpa using List.find?_some hm
  obtain ⟨hmem, hexternal⟩ := List.mem_filter.1 (List.mem_of_find?_eq_some hm)
  unfold Graph.externalMentions at hm
  rw [List.find?_filter, List.find?_flatMap, h.linked.declared] at hm
  obtain ⟨before, d, after, hsplit, hd, hbefore⟩ := List.findSome?_eq_some_iff.1 hm
  have hmention := List.mem_of_find?_eq_some hd
  refine ⟨rfl, before, d, after, hsplit, (Graph.mem_mentions.1 hmention).1, ?_, ?_⟩
  · refine h.exists_linkedTo_of_mention ?_ hmention hforeign
    rw [hsplit]
    exact List.mem_append_right _ List.mem_cons_self
  · intro e he reference hlinked
    obtain ⟨role, hrole⟩ := mention_of_linkedTo hlinked
    have hnone := List.find?_eq_none.1 (hbefore e he) _ hrole
    rw [hexternal] at hnone
    simp at hnone

end Linkage

/-- After linking, the log tells nothing more of external types. -/
theorem Hierarchy.filter_events_build {l : Linking}
    (hrun : Linking.run settings declarations = .ok l) {p : Event → Bool}
    (hlinked : ∀ n, p (.linked n) = false) (hvalidated : ∀ n, p (.validated n) = false)
    (hcomputed : ∀ i n k, p (.computed i n k) = false) :
    (build settings declarations).events.filter p = l.events.filter p := by
  unfold build
  rw [hrun]
  simp only []
  cases l.graph.fault? <;> simp [computed, hlinked, hvalidated, hcomputed]

/-- Every external type of a linked graph is announced exactly once, at debug level as one that the
settings know or else with a warning as an unresolved reference of the first declaration that is
linked to it, and no other name is announced. The role it has is that of the first reference to it,
and every later reference in another role is warned of once, in the order of linking. -/
theorem externals_announced {settings : Resolver} {declarations : List Declaration} {l : Linking}
    (hrun : Linking.run settings declarations = .ok l) :
    (∀ x ∈ l.graph.externals, ∃ before d after, declarations = before ++ d :: after ∧
      LinkedTo l.graph d x.name x.name ∧
      (∀ e ∈ before, ∀ reference, ¬ LinkedTo l.graph e reference x.name) ∧
      l.graph.externalMentions.find? (·.name = x.name) = some ⟨d.name, x.name, x.role⟩ ∧
      ((Hierarchy.build settings declarations).events.filter (·.announces x.name)).map (·.entry) =
        [if settings.isExternal x.name then
          (.resolvedExternal x.name x.role, .debug,
            "[builder] '" ++ x.name ++ "' resolved as external " ++ x.role.phrase)
        else
          (.toleratedExternal x.name d.name, .warn,
            "[builder] unresolved reference '" ++ x.name ++ "' in '" ++ d.name
              ++ "' treated as external")]) ∧
    (∀ name, name ∉ l.graph.externals.map (·.name) →
      (Hierarchy.build settings declarations).events.filter (·.announces name) = []) ∧
    ((Hierarchy.build settings declarations).events.filter (·.isRoleConflict)).map (·.entry) =
      l.graph.externalMentions.filterMap fun m =>
        (l.graph.externalMentions.find? (·.name = m.name)).bind fun first =>
          if first.role = m.role then none
          else
            some (.roleConflict m.name m.role m.source first.role, .warn,
              "[builder] external type '" ++ m.name ++ "' used as " ++ m.role.phrase ++ " by '"
                ++ m.source ++ "' but first seen as " ++ first.role.phrase) := by
  obtain ⟨links, hlinks⟩ := linkage_of_run hrun
  obtain ⟨own, hlinked, htold⟩ := Recorded.of_run hrun
  obtain rfl : own = ownEdges links := hlinked.ownEdges.symm.trans hlinks.linked.ownEdges
  have hevents := htold.events
  have hentries := htold.entries
  rw [hlinks.foreignMentions_eq] at hevents
  simp only [hlinks.foreignMentions_eq] at hentries
  refine ⟨fun x hx => ?_, fun name hname => ?_, ?_⟩
  · have hforeign := hlinks.foreign_of_external (List.mem_map_of_mem hx)
    obtain ⟨m, hm, hmx⟩ := Option.map_eq_some_iff.1
      ((hentries x.name).symm.trans (hlinks.external?_eq_some_iff.2 ⟨hx, rfl⟩))
    obtain ⟨-, before, d, after, hsplit, hsource, hlink, hfirst⟩ :=
      hlinks.first_mention hforeign hm
    subst hmx
    refine ⟨before, d, after, hsplit, hlink, hfirst, hsource ▸ hm, ?_⟩
    rw [Hierarchy.filter_events_build hrun (fun _ => rfl) (fun _ => rfl) fun _ _ _ => rfl, hevents,
      Mention.filter_announces_narrate, List.find?_nil, hm, ← hsource]
    exact congrArg ([·]) (Mention.entry_announcement m)
  · rw [Hierarchy.filter_events_build hrun (fun _ => rfl) (fun _ => rfl) fun _ _ _ => rfl, hevents,
      Mention.filter_announces_narrate, List.find?_nil]
    have hnone := (hentries name).symm.trans (Linked.external?_eq_none_iff.2 hname)
    rw [Option.map_eq_none_iff.1 hnone]
    rfl
  · rw [Hierarchy.filter_events_build hrun (fun _ => rfl) (fun _ => rfl) fun _ _ _ => rfl, hevents,
      Mention.filter_isRoleConflict_narrate, List.nil_append, List.map_filterMap]
    refine congrArg (List.filterMap · _) (funext fun m => ?_)
    rw [Option.map_bind]
    exact congrArg (Option.bind _) (funext fun first => m.map_entry_conflict? first.role)

/-- A class over a type that nobody knows and that another type names as an interface. -/
def pipes : List Declaration :=
  [{ name := "app.Reader", kind := .interface, interfaces := ["Closeable", "Source"] },
    { name := "app.Pipe", kind := .concreteClass, superclass := some "Source",
      interfaces := ["Closeable", "Reader"] }]

theorem externals_announced_pipes :
    ∃ l, Linking.run (Resolver.lenient {}) pipes = .ok l ∧
      l.graph.externals = [⟨"Closeable", .asInterface⟩, ⟨"Source", .asInterface⟩] ∧
      ((Hierarchy.build (Resolver.lenient {}) pipes).events.filter (·.isRoleConflict)).map
        (·.entry) =
        [(.roleConflict "Source" .asClass "app.Pipe" .asInterface, .warn,
          "[builder] external type 'Source' used as a class by 'app.Pipe' "
            ++ "but first seen as an interface")] ∧
      ((Hierarchy.build (Resolver.lenient {}) pipes).events.filter (·.announces "Closeable")).map
        (·.entry) =
        [(.resolvedExternal "Closeable" .asInterface, .debug,
          "[builder] 'Closeable' resolved as external an interface")] ∧
      ((Hierarchy.build (Resolver.lenient {}) pipes).events.filter (·.announces "Source")).map
        (·.entry) =
        [(.toleratedExternal "Source" "app.Reader", .warn,
          "[builder] unresolved reference 'Source' in 'app.Reader' treated as external")] ∧
      (Hierarchy.build (Resolver.lenient {}) pipes).events.filter (·.announces "Reader") = [] := by
  obtain ⟨l, hrun⟩ : ∃ l, Linking.run (Resolver.lenient {}) pipes = .ok l := ⟨_, rfl⟩
  have hexternals : l.graph.externals =
      [⟨"Closeable", .asInterface⟩, ⟨"Source", .asInterface⟩] := by
    obtain rfl := Except.ok.inj (hrun.symm.trans rfl)
    rfl
  have hmentions : l.graph.externalMentions =
      [⟨"app.Reader", "Closeable", .asInterface⟩, ⟨"app.Reader", "Source", .asInterface⟩,
        ⟨"app.Pipe", "Source", .asClass⟩, ⟨"app.Pipe", "Closeable", .asInterface⟩] := by
    obtain rfl := Except.ok.inj (hrun.symm.trans rfl)
    rfl
  obtain ⟨hannounced, hnone, hconflicts⟩ := externals_announced hrun
  refine ⟨l, hrun, hexternals, ?_, ?_, ?_, hnone "Reader" (by rw [hexternals]; decide)⟩
  · rw [hconflicts, hmentions]
    decide +kernel
  · obtain ⟨_, d, _, -, -, -, -, hlog⟩ :=
      hannounced ⟨"Closeable", .asInterface⟩ (by rw [hexternals]; decide)
    rw [hlog, if_pos (by decide)]
    decide +kernel
  · obtain ⟨_, d, _, -, -, -, hfirst, hlog⟩ :=
      hannounced ⟨"Source", .asInterface⟩ (by rw [hexternals]; decide)
    rw [hmentions] at hfirst
    obtain ⟨hname, -⟩ := Mention.mk.inj (Option.some.inj hfirst)
    rw [hlog, ← hname]
    decide +kernel

end Lineage
