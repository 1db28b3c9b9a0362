import Lineage.Proofs.Chains

/-!
# What the methods owed are

The ledger of a hierarchy against the rules for its entries. Every class in the ledger inherits what
its chain of declared classes gives it, whatever the order in which classes were looked at, because
a class is looked at after its superclass (`Built.obligations_eq`). So a concrete class owes what
the chain leaves abstract nearest to it, and what only interfaces declare and none of them settles
(`mem_owedBy_iff`).
-/

namespace Lineage

/-! ## Rules -/

/-- The nearest class of a chain that declares a method abstract has no nearer body before it. -/
def NearestAbstract (s : Signature) (chain : List Declaration) : Prop :=
  ∃ nearer nearest farther, chain = nearer ++ nearest :: farther ∧ s ∈ nearest.abstracts ∧
    (∀ c ∈ nearer, s ∉ c.abstracts) ∧ ∀ c ∈ nearer, s ∉ c.concretes

/-- No class of a chain declares a method, some interface does, and none has a body. -/
def DemandedByInterface (s : Signature) (chain interfaces : List Declaration) : Prop :=
  (∀ c ∈ chain, s ∉ c.abstracts ∧ s ∉ c.concretes) ∧ (∃ i ∈ interfaces, s ∈ i.abstracts) ∧
    ∀ i ∈ interfaces, s ∉ i.concretes

theorem not_nearestAbstract_nil (s : Signature) : ¬ NearestAbstract s [] := by
  rintro ⟨nearer, nearest, farther, hnil, -⟩
  simp at hnil

theorem nearestAbstract_cons {s : Signature} {d : Declaration} {chain : List Declaration} :
    NearestAbstract s (d :: chain) ↔
      s ∈ d.abstracts ∨ s ∉ d.concretes ∧ NearestAbstract s chain := by
  constructor
  · rintro ⟨nearer, nearest, farther, hchain, hs, habstract, hconcrete⟩
    cases nearer with
    | nil =>
      obtain ⟨rfl, -⟩ := List.cons.inj hchain
      exact Or.inl hs
    | cons c nearer =>
      obtain ⟨rfl, rfl⟩ := List.cons.inj hchain
      exact Or.inr ⟨hconcrete d List.mem_cons_self, nearer, nearest, farther, rfl, hs,
        fun c hc => habstract c (List.mem_cons_of_mem _ hc),
        fun c hc => hconcrete c (List.mem_cons_of_mem _ hc)⟩
  · intro h
    by_cases hs : s ∈ d.abstracts
    · exact ⟨[], d, chain, rfl, hs, fun c hc => absurd hc List.not_mem_nil,
        fun c hc => absurd hc List.not_mem_nil⟩
    · obtain ⟨hd, nearer, nearest, farther, rfl, hnearest, habstract, hconcrete⟩ :=
        h.resolve_left hs
      exact ⟨d :: nearer, nearest, farther, rfl, hnearest, List.forall_mem_cons.2 ⟨hs, habstract⟩,
        List.forall_mem_cons.2 ⟨hd, hconcrete⟩⟩

theorem demandedByInterface_congr {s : Signature} {chain interfaces others : List Declaration}
    (h : ∀ i, i ∈ interfaces ↔ i ∈ others) :
    DemandedByInterface s chain interfaces ↔ DemandedByInterface s chain others := by
  unfold DemandedByInterface
  simp only [h]

/-! ## What a class inherits -/

/-- What classes with a chain of declared classes inherit. -/
structure Inherits (g : Graph) (chain : List Declaration) (i : Inheritance) : Prop where
  pending : ∀ s, s ∈ i.pending ↔ NearestAbstract s chain
  abstracts : ∀ s, s ∈ i.abstracts ↔ ∃ c ∈ chain, s ∈ c.abstracts
  concretes : ∀ s, s ∈ i.concretes ↔ ∃ c ∈ chain, s ∈ c.concretes
  interfaces : ∀ name, name ∈ i.interfaces ↔ ∃ c ∈ chain, g.Implements c.name name

namespace Inherits

variable {g : Graph} {chain : List Declaration} {i : Inheritance}

theorem nil (g : Graph) : Inherits g [] {} where
  pending s := iff_of_false List.not_mem_nil (not_nearestAbstract_nil s)
  abstracts s := by simp
  concretes s := by simp
  interfaces name := by simp

theorem inherit (h : Inherits g chain i) (d : Declaration) :
    Inherits g (d :: chain) (g.inherit d i) where
  pending s := by
    unfold Graph.inherit
    rw [nearestAbstract_cons, List.mem_append, List.mem_filter, decide_eq_true_eq, h.pending,
      or_comm, and_comm]
  abstracts s := by
    unfold Graph.inherit
    simp only [List.mem_cons, exists_eq_or_imp]
    rw [List.mem_append, h.abstracts, or_comm]
  concretes s := by
    unfold Graph.inherit
    simp only [List.mem_cons, exists_eq_or_imp]
    rw [List.mem_append, h.concretes, or_comm]
  interfaces name := by
    have hfound : ∀ other, other ∈ i.interfaces ↔
        ∃ c ∈ chain.map (·.name), g.Implements c other := by
      intro other
      rw [h.interfaces]
      simp only [List.mem_map, exists_exists_and_eq_and]
    unfold Graph.inherit
    simp only [List.mem_cons, exists_eq_or_imp]
    rw [Graph.mem_closure_implements hfound, ← hfound, h.interfaces, or_comm]

/-- The methods owed are those that the rules say. -/
theorem mem_owed (h : Inherits g chain i) (s : Signature) :
    s ∈ g.owed i ↔ NearestAbstract s chain ∨
      DemandedByInterface s chain (i.interfaces.filterMap g.declared?) := by
  unfold Graph.owed DemandedByInterface
  rw [Signature.mem_sorted, List.mem_append, h.pending]
  refine or_congr_right ?_
  rw [List.mem_filter, Bool.and_eq_true, decide_eq_true_eq, decide_eq_true_eq, List.mem_append,
    h.abstracts, h.concretes, List.mem_flatMap, List.mem_flatMap]
  constructor
  · rintro ⟨hdemanded, habstract, hbody⟩
    refine ⟨fun c hc => ⟨fun hs => habstract ⟨c, hc, hs⟩, fun hs => hbody (Or.inl ⟨c, hc, hs⟩)⟩,
      hdemanded, fun i hi hs => hbody (Or.inr ⟨i, hi, hs⟩)⟩
  · rintro ⟨hchain, hdemanded, hbody⟩
    refine ⟨hdemanded, fun ⟨c, hc, hs⟩ => (hchain c hc).1 hs, ?_⟩
    rintro (⟨c, hc, hs⟩ | ⟨i, hi, hs⟩)
    · exact (hchain c hc).2 hs
    · exact hbody i hi hs

end Inherits

/-- What a class inherits, worked out along its whole chain. -/
def Graph.inherited (g : Graph) (d : Declaration) : Inheritance :=
  (g.declaredChain d).foldr g.inherit {}

theorem inherits_inherited (g : Graph) (d : Declaration) :
    Inherits g (g.declaredChain d) (g.inherited d) := by
  unfold Graph.inherited
  induction g.declaredChain d with
  | nil => exact Inherits.nil g
  | cons d chain ih => exact ih.inherit d

/-- What a class inherits comes from its superclass, if somebody declares it. -/
theorem inherited_eq {g : Graph} (hacyclic : ¬ g.inheritance.Cyclic) (d : Declaration) :
    g.inherited d =
      g.inherit d (((g.superclass? d.name).bind g.declared?).elim {} g.inherited) := by
  unfold Graph.inherited
  rw [Graph.declaredChain_eq hacyclic]
  cases (g.superclass? d.name).bind g.declared? <;> rfl

/-! ## Classes looked at -/

/-- Each class that was looked at is declared and inherits what its chain gives it. -/
def Known (g : Graph) (known : List (TypeName × Inheritance)) : Prop :=
  ∀ name i, known.lookup name = some i → ∃ d, g.declared? name = some d ∧ i = g.inherited d

namespace Known

variable {g : Graph} {known : List (TypeName × Inheritance)}

theorem lookup_visit (g : Graph) (d : Declaration) (known : List (TypeName × Inheritance))
    (name : TypeName) : (g.visit d known).lookup name =
      if name = d.name then
        some (g.inherit d (((g.superclass? d.name).bind fun super => known.lookup super).getD {}))
      else known.lookup name := by
  unfold Graph.visit
  rw [List.lookup_cons]
  by_cases hname : name = d.name
  · rw [if_pos hname, beq_iff_eq.2 hname]
  · rw [if_neg hname, beq_eq_false_iff_ne.2 hname]

theorem visit (h : Known g known) (hacyclic : ¬ g.inheritance.Cyclic) {d : Declaration}
    (hd : g.declared? d.name = some d)
    (hsuper : ∀ super, g.superclass? d.name = some super → (g.declared? super).isSome →
      (known.lookup super).isSome) : Known g (g.visit d known) := by
  intro name i hi
  rw [lookup_visit] at hi
  by_cases hname : name = d.name
  · rw [if_pos hname] at hi
    obtain rfl := Option.some.inj hi
    refine ⟨d, hname ▸ hd, ?_⟩
    rw [inherited_eq hacyclic]
    congr 1
    cases hs : g.superclass? d.name with
    | none => rfl
    | some super =>
      rw [Option.bind_some, Option.bind_some]
      cases hlookup : known.lookup super with
      | some above =>
        obtain ⟨e, he, rfl⟩ := h super above hlookup
        rw [he]
        rfl
      | none =>
        have hnone : g.declared? super = none := by
          by_contra hne
          have hsome := hsuper super hs (Option.isSome_iff_ne_none.2 hne)
          rw [hlookup] at hsome
          exact nomatch hsome
        rw [hnone]
        rfl
  · rw [if_neg hname] at hi
    exact h name i hi

/-- Looking at a class and the unvisited ones above it, those in `below` not among them. The bound
does not cut the search, because all these classes are declared and distinct. -/
theorem foldr_unvisited (h : Known g known) (hacyclic : ¬ g.inheritance.Cyclic) {bound : Nat}
    {name : TypeName} {below : List TypeName} (hnodup : below.Nodup) (hsub : below ⊆ g.typeNames)
    (hbelow : ∀ b ∈ below, Relation.TransGen g.inheritance.Adj b name)
    (hbound : g.declared.length < below.length + bound) :
    Known g ((g.unvisited known bound name).foldr g.visit known) ∧
      ((g.declared? name).isSome →
        (((g.unvisited known bound name).foldr g.visit known).lookup name).isSome) := by
  induction bound generalizing name below with
  | zero =>
    have hle := (hnodup.subperm hsub).length_le
    rw [Graph.typeNames, List.length_map] at hle
    omega
  | succ bound ih =>
    rw [Graph.unvisited]
    by_cases hknown : (known.lookup name).isSome = true
    · rw [if_pos hknown]
      exact ⟨h, fun _ => hknown⟩
    · rw [if_neg hknown]
      cases hd : g.declared? name with
      | none => exact ⟨h, fun hsome => nomatch hsome⟩
      | some d =>
        obtain ⟨hmem, rfl⟩ := Graph.mem_of_declared? hd
        cases hs : g.superclass? d.name with
        | none =>
          refine ⟨h.visit hacyclic hd fun super hsuper => ?_, fun _ => ?_⟩
          · rw [hs] at hsuper
            exact nomatch hsuper
          · simp only [List.foldr_cons, List.foldr_nil]
            rw [lookup_visit, if_pos rfl]
            rfl
        | some super =>
          have hadj : g.inheritance.Adj d.name super := Graph.adj_of_superclass? hs
          have hnew : d.name ∉ below := fun hin => hacyclic ⟨d.name, hbelow d.name hin⟩
          have hbelow' : ∀ b ∈ d.name :: below, Relation.TransGen g.inheritance.Adj b super :=
            List.forall_mem_cons.2 ⟨.single hadj, fun b hb => (hbelow b hb).tail hadj⟩
          obtain ⟨hrest, hrestSome⟩ := ih (List.nodup_cons.2 ⟨hnew, hnodup⟩)
            (List.cons_subset.2 ⟨List.mem_map_of_mem hmem, hsub⟩) hbelow'
            (by rw [List.length_cons]; omega)
          simp only [List.foldr_cons]
          refine ⟨hrest.visit hacyclic hd fun other hother => ?_, fun _ => ?_⟩
          · obtain rfl := Option.some.inj (hs.symm.trans hother)
            exact hrestSome
          · rw [lookup_visit, if_pos rfl]
            rfl

theorem visitChain (h : Known g known) (hacyclic : ¬ g.inheritance.Cyclic) (d : Declaration)
    (hd : (g.declared? d.name).isSome) :
    Known g (g.visitChain known d) ∧ ((g.visitChain known d).lookup d.name).isSome := by
  have hbelow : ∀ b ∈ ([] : List TypeName), Relation.TransGen g.inheritance.Adj b d.name :=
    fun b hb => absurd hb List.not_mem_nil
  obtain ⟨hknown, hsome⟩ := h.foldr_unvisited hacyclic List.nodup_nil (List.nil_subset _) hbelow
    (show g.declared.length < 0 + (g.declared.length + 1) by omega)
  exact ⟨hknown, hsome hd⟩

end Known

/-! ## The ledger -/

/-- What a class owes, as an entry under its name. -/
def Graph.obligation (g : Graph) (d : Declaration) : TypeName × List Signature :=
  (d.name, g.owed (g.inherited d))

/-- A ledger into which these classes were entered. -/
structure Ledgered (g : Graph) (classes : List Declaration) (ledger : Ledger) : Prop where
  known : Known g ledger.inheritances
  obligations : ledger.obligations = classes.map g.obligation

namespace Ledgered

variable {g : Graph} {classes : List Declaration} {ledger : Ledger}

theorem nil (g : Graph) : Ledgered g [] {} :=
  ⟨fun _ _ hi => (nomatch hi), rfl⟩

theorem enterClass (h : Ledgered g classes ledger) (hacyclic : ¬ g.inheritance.Cyclic)
    {d : Declaration} (hd : g.declared? d.name = some d) :
    Ledgered g (classes ++ [d]) (g.enterClass ledger d) := by
  obtain ⟨hknown, hsome⟩ := h.known.visitChain hacyclic d (by rw [hd]; rfl)
  obtain ⟨i, hi⟩ := Option.isSome_iff_exists.1 hsome
  obtain ⟨e, he, rfl⟩ := hknown d.name i hi
  obtain rfl : d = e := Option.some.inj (hd.symm.trans he)
  unfold Graph.enterClass
  simp only [hi]
  refine ⟨hknown, ?_⟩
  rw [List.map_append, h.obligations]
  rfl

theorem foldl_enterClass (h : Ledgered g classes ledger) (hacyclic : ¬ g.inheritance.Cyclic)
    {todo : List Declaration} (htodo : ∀ d ∈ todo, g.declared? d.name = some d) :
    Ledgered g (classes ++ todo) (todo.foldl g.enterClass ledger) := by
  induction todo generalizing classes ledger with
  | nil =>
    rw [List.append_nil]
    exact h
  | cons d todo ih =>
    rw [List.foldl_cons, List.append_cons]
    exact ih (h.enterClass hacyclic (htodo d List.mem_cons_self))
      fun e he => htodo e (List.mem_cons_of_mem _ he)

end Ledgered

theorem lookup_map_obligation {g : Graph} {classes : List Declaration} {name : TypeName} :
    (classes.map g.obligation).lookup name =
      (classes.find? (·.name = name)).map fun d => g.owed (g.inherited d) := by
  induction classes with
  | nil => rfl
  | cons d classes ih =>
    rw [List.map_cons, List.lookup_cons, List.find?_cons]
    by_cases hname : d.name = name
    · rw [decide_eq_true hname,
        show (name == (g.obligation d).1) = true from beq_iff_eq.2 hname.symm]
      rfl
    · rw [decide_eq_false hname,
        show (name == (g.obligation d).1) = false from beq_eq_false_iff_ne.2 (Ne.symm hname)]
      exact ih

namespace Hierarchy.Built

variable {settings : Resolver} {declarations : List Declaration}
  {links : List (Declaration × Links)} {h : Hierarchy}

/-- The ledger of a hierarchy holds what each concrete class owes by its whole chain. -/
theorem obligations_eq (hb : Built settings declarations links h) :
    h.obligations = h.graph.concreteClasses.map h.graph.obligation := by
  rw [hb.obligations]
  refine ((Ledgered.nil h.graph).foldl_enterClass hb.acyclic_inheritance fun d hd => ?_).obligations
  have hmem : d ∈ h.graph.declared := List.mem_of_mem_filter hd
  rw [hb.linkage.declared?_eq_some_iff]
  exact ⟨hb.linkage.linked.declared ▸ hmem, rfl⟩

theorem lookup_obligations (hb : Built settings declarations links h) (name : TypeName) :
    h.obligations.lookup name =
      ((h.graph.declared? name).filter (·.kind.isConcrete)).map
        fun d => h.graph.owed (h.graph.inherited d) := by
  rw [hb.obligations_eq, lookup_map_obligation]
  congr 1
  apply Option.ext
  intro d
  have hnodup : (h.graph.concreteClasses.map (·.name)).Nodup := by
    refine List.Nodup.sublist (List.filter_sublist.map _) ?_
    rw [hb.linkage.linked.declared]
    exact hb.linkage.named.nodup
  rw [find?_name_eq_some_iff hnodup, Option.filter_eq_some_iff, hb.linkage.declared?_eq_some_iff,
    Graph.concreteClasses, List.mem_filter, hb.linkage.linked.declared, and_right_comm]

theorem owedBy_of_concrete (hb : Built settings declarations links h) {d : Declaration}
    (hd : d ∈ declarations) (hkind : d.kind = .concreteClass) :
    h.owedBy d.name = .ok (h.graph.owed (h.graph.inherited d)) := by
  unfold owedBy
  rw [hb.canonical_of_declared hd]
  show Except.ok ((h.obligations.lookup d.name).getD []) = _
  rw [hb.lookup_obligations, hb.linkage.declared?_eq_some_iff.2 ⟨hd, rfl⟩,
    Option.filter_some_pos (by rw [hkind]; rfl)]
  rfl

theorem mem_interfaces_inherited_iff (hb : Built settings declarations links h) (d : Declaration)
    (name : TypeName) : name ∈ (h.graph.inherited d).interfaces ↔
      name ∈ h.graph.interfacesOfAll (d.name :: h.graph.ancestors d.name) := by
  rw [(inherits_inherited h.graph d).interfaces, Graph.mem_interfacesOfAll,
    hb.linkage.exists_implements_iff]

theorem mem_interfaces_iff (hb : Built settings declarations links h) (d e : Declaration) :
    e ∈ (h.graph.inherited d).interfaces.filterMap h.graph.declared? ↔
      e ∈ (h.graph.interfacesOfAll (d.name :: h.graph.ancestors d.name)).filterMap
        h.graph.declared? := by
  rw [List.mem_filterMap, List.mem_filterMap]
  exact exists_congr fun name => and_congr_left fun _ => hb.mem_interfaces_inherited_iff d name

end Hierarchy.Built

/-! ## The methods owed -/

/-- A concrete class owes a method exactly if it is abstract in its chain of declared classes
without a nearer body, or declared by interfaces alone and without a body in any of them. All other
types owe nothing. -/
theorem mem_owedBy_iff {settings : Resolver} {declarations : List Declaration} {h : Hierarchy}
    (hbuild : (Hierarchy.build settings declarations).value = .ok h) :
    (∀ d ∈ declarations, d.kind = .concreteClass → ∃ owed above interfaces,
      h.owedBy d.name = .ok owed ∧ h.ancestorsOf d.name = .ok above ∧
      h.interfacesOf d.name = .ok interfaces ∧
      ∀ s, s ∈ owed ↔ NearestAbstract s (d :: h.graph.declaredUntil above) ∨
        DemandedByInterface s (d :: h.graph.declaredUntil above)
          (interfaces.filterMap h.graph.declared?)) ∧
    ∀ name, h.contains name = true →
      (∀ d ∈ declarations, d.kind = .concreteClass → d.name ≠ name) → h.owedBy name = .ok [] := by
  obtain ⟨links, hb⟩ := Hierarchy.built_of_build hbuild
  constructor
  · intro d hd hkind
    have hname := hb.canonical_of_declared hd
    refine ⟨h.graph.owed (h.graph.inherited d), h.graph.ancestors d.name,
      h.graph.interfacesOfAll (d.name :: h.graph.ancestors d.name),
      hb.owedBy_of_concrete hd hkind, Hierarchy.ancestorsOf_of_canonical hname,
      Hierarchy.interfacesOf_of_canonical hname, fun s => ?_⟩
    rw [(inherits_inherited h.graph d).mem_owed,
      demandedByInterface_congr (hb.mem_interfaces_iff d)]
    rfl
  · intro name hknown hname
    have hnone : ∀ other, (∀ d ∈ declarations, d.kind = .concreteClass → d.name ≠ other) →
        h.obligations.lookup other = none := by
      intro other hother
      rw [hb.lookup_obligations, Option.map_eq_none_iff, Option.filter_eq_none_iff]
      intro d hd hkind
      obtain ⟨hmem, rfl⟩ := hb.linkage.declared?_eq_some_iff.1 hd
      exact hother d hmem (of_decide_eq_true hkind) rfl
    unfold Hierarchy.owedBy
    rw [Hierarchy.canonical_eq, if_pos hknown]
    show Except.ok ((h.obligations.lookup _).getD []) = _
    rw [hnone]
    · rfl
    · split_ifs
      · intro d hd _ heq
        exact hb.linkage.root_not_mem (heq ▸ List.mem_map_of_mem hd)
      · exact hname

/-- A class without methods under an abstract class and an interface. -/
def unfinished : List Declaration :=
  [{ name := "app.Base", kind := .abstractClass,
      methods := [⟨⟨"run", []⟩, true⟩, ⟨⟨"stop", []⟩, false⟩] },
    { name := "app.Task", kind := .interface,
      methods := [⟨⟨"stop", []⟩, true⟩, ⟨⟨"rest", []⟩, true⟩] },
    { name := "app.Job", kind := .concreteClass, superclass := some "Base",
      interfaces := ["Task"] }]

theorem run_mem_owedBy_unfinished :
    ∃ h owed, (Hierarchy.build .closed unfinished).value = .ok h ∧
      h.owedBy "app.Job" = .ok owed ∧ ⟨"run", []⟩ ∈ owed ∧ ⟨"stop", []⟩ ∉ owed ∧
      h.owedBy "app.Base" = .ok [] := by
  have hbuild := Hierarchy.value_build_of_run
    (show Linking.run .closed unfinished = .ok _ from rfl) (by decide +kernel)
  obtain ⟨hjob, hrest⟩ := mem_owedBy_iff hbuild
  obtain ⟨owed, above, interfaces, howed, habove, hinterfaces, hiff⟩ :=
    hjob unfinished[2] (by decide) rfl
  obtain rfl := Except.ok.inj (habove.symm.trans
    (show _ = Except.ok ["app.Base", "Object"] from rfl))
  refine ⟨_, owed, hbuild, howed, ?_, ?_, hrest "app.Base" rfl (by decide)⟩
  · rw [hiff]
    exact Or.inl ⟨[unfinished[2]], unfinished[0], [], rfl, by decide, by decide, by decide⟩
  · rw [hiff, not_or]
    refine ⟨?_, fun h => ?_⟩
    · show ¬ NearestAbstract _ [unfinished[2], unfinished[0]]
      simp only [nearestAbstract_cons]
      rintro (h | ⟨-, h | ⟨h, -⟩⟩)
      · exact absurd h (by decide)
      · exact absurd h (by decide)
      · exact h (by decide)
    · exact (h.1 unfinished[0] (List.mem_cons_of_mem _ List.mem_cons_self)).2 (by decide)

end Lineage
