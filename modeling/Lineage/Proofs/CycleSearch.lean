import Lineage.Proofs.Reachability
import Mathlib.Data.List.Chain
import Mathlib.Data.List.Nodup
import Mathlib.Data.List.TakeWhile

/-!
# What depth-first search finds

`Digraph.findCycle` against cycles as such. One turn of the search is a step of the relation `Turn`,
which has no infinite run (`wellFounded_turn`) and keeps the invariant `Searching`: the active path
is a path of the graph, and the finished nodes form a closed set without cycles. So the list that
the search ends with is a cycle (`isCycle_of_findCycle`), and it ends without one only if none can
be reached from the starts (`not_transGen_of_findCycle`).
-/

namespace Lineage

namespace Digraph

variable {α : Type} {g : Digraph α}

/-! ## Cycles -/

/-- Where no way leads back, a path meets nothing twice. -/
theorem nodup_of_isChain {r : α → α → Prop} (hacyclic : ∀ a, ¬ Relation.TransGen r a a)
    {path : List α} (h : path.IsChain r) : path.Nodup := by
  have hchain := h.imp fun _ _ => Relation.TransGen.single
  refine (List.isChain_iff_pairwise.1 hchain).imp fun hab heq => ?_
  subst heq
  exact hacyclic _ hab

/-- Distinct nodes, each with an arrow to the next, and the last with one to the first. -/
structure IsCycle (g : Digraph α) (path : List α) : Prop where
  nodup : path.Nodup
  chain : path.IsChain g.Adj
  closes : ∃ first ∈ path.head?, ∃ last ∈ path.getLast?, g.Adj last first

/-- Some node has a way back to itself. -/
def Cyclic (g : Digraph α) : Prop :=
  ∃ a, Relation.TransGen g.Adj a a

theorem IsCycle.ne_nil {path : List α} (h : g.IsCycle path) : path ≠ [] := by
  obtain ⟨first, hfirst, -⟩ := h.closes
  rintro rfl
  simp at hfirst

theorem transGen_of_isChain {a b : α} {path : List α} (h : (a :: path).IsChain g.Adj)
    (hb : b ∈ path) : Relation.TransGen g.Adj a b :=
  (h.imp fun _ _ => Relation.TransGen.single).rel_cons hb

theorem IsCycle.transGen {path : List α} (h : g.IsCycle path) {a : α} (ha : a ∈ path) :
    Relation.TransGen g.Adj a a := by
  obtain ⟨first, hfirst, last, hlast, hback⟩ := h.closes
  obtain ⟨before, after, rfl⟩ := List.append_of_mem ha
  -- from `a` to the last node, over the arrow back, and from the first node to `a`
  have hto : g.Reaches a last := by
    rw [Option.mem_def, List.getLast?_append_of_ne_nil _ (List.cons_ne_nil a after)] at hlast
    rcases List.mem_cons.1 (List.mem_of_getLast? hlast) with rfl | hmem
    · exact Reaches.refl last
    · exact (transGen_of_isChain h.chain.right_of_append hmem).to_reflTransGen
  have hfrom : g.Reaches first a := by
    cases before with
    | nil =>
      obtain rfl : a = first := by simpa using hfirst
      exact Reaches.refl a
    | cons b before =>
      obtain rfl : b = first := by simpa using hfirst
      exact (transGen_of_isChain h.chain (by simp)).to_reflTransGen
  exact Relation.TransGen.trans_left (Relation.TransGen.trans_right hto (.single hback)) hfrom

variable [DecidableEq α]

/-! ## Turns of the search -/

/-- The nodes of the active path, last first. -/
def onPath (path : List (α × List α)) : List α :=
  path.map (·.1)

/-- One turn of the search, from an active path and the finished nodes to the next. A turn that
meets a node of the path ends the search, so it is none of these. -/
inductive Turn (g : Digraph α) : List (α × List α) × List α → List (α × List α) × List α → Prop
  | leave {a rest finished} : Turn g ((a, []) :: rest, finished) (rest, finished ++ [a])
  | skip {a b bs rest finished} (hpath : b ∉ onPath ((a, bs) :: rest)) (hdone : b ∈ finished) :
      Turn g ((a, b :: bs) :: rest, finished) ((a, bs) :: rest, finished)
  | enter {a b bs rest finished} (hpath : b ∉ onPath ((a, bs) :: rest)) (hnew : b ∉ finished) :
      Turn g ((a, b :: bs) :: rest, finished) ((b, g.successors b) :: (a, bs) :: rest, finished)

/-- The search cannot take turns for ever, whatever it starts with. -/
theorem wellFounded_turn (g : Digraph α) : WellFounded fun t s => g.Turn s t := by
  refine ⟨fun ⟨path, finished⟩ => ?_⟩
  induction path, finished using explore.induct g with
  | case1 finished => exact ⟨_, fun t ht => nomatch ht⟩
  | case2 finished a rest ih =>
    refine ⟨_, fun t ht => ?_⟩
    cases ht
    exact ih
  | case3 finished a b bs rest hpath =>
    refine ⟨_, fun t ht => ?_⟩
    cases ht <;> contradiction
  | case4 finished a b bs rest hpath hdone ih =>
    refine ⟨_, fun t ht => ?_⟩
    cases ht
    · exact ih
    · contradiction
  | case5 finished a b bs rest hpath hnew ih =>
    refine ⟨_, fun t ht => ?_⟩
    cases ht
    · contradiction
    · exact ih

/-- How a search that takes turns comes to its end: with the path used up, or where the path meets
itself. -/
theorem explore_spec (path : List (α × List α)) (finished : List α) :
    (∃ finished', g.explore path finished = .ok finished' ∧
      Relation.ReflTransGen g.Turn (path, finished) ([], finished')) ∨
    ∃ a b bs rest finished', b ∈ onPath ((a, bs) :: rest) ∧
      g.explore path finished = .error ((onPath ((a, bs) :: rest)).reverse.dropWhile (· ≠ b)) ∧
      Relation.ReflTransGen g.Turn (path, finished) ((a, b :: bs) :: rest, finished') := by
  induction path, finished using explore.induct g with
  | case1 finished => exact Or.inl ⟨finished, by rw [explore], .refl⟩
  | case2 finished a rest ih =>
    rw [explore]
    exact ih.imp (fun ⟨f, hf, ht⟩ => ⟨f, hf, .head .leave ht⟩)
      fun ⟨c, b, bs, r, f, hb, hf, ht⟩ => ⟨c, b, bs, r, f, hb, hf, .head .leave ht⟩
  | case3 finished a b bs rest hpath =>
    refine Or.inr ⟨a, b, bs, rest, finished, hpath, ?_, .refl⟩
    rw [explore, if_pos hpath]
    rfl
  | case4 finished a b bs rest hpath hdone ih =>
    rw [explore, if_neg hpath, if_pos hdone]
    exact ih.imp (fun ⟨f, hf, ht⟩ => ⟨f, hf, .head (.skip hpath hdone) ht⟩)
      fun ⟨c, d, bs, r, f, hd, hf, ht⟩ => ⟨c, d, bs, r, f, hd, hf, .head (.skip hpath hdone) ht⟩
  | case5 finished a b bs rest hpath hnew ih =>
    rw [explore, if_neg hpath, if_neg hnew]
    exact ih.imp (fun ⟨f, hf, ht⟩ => ⟨f, hf, .head (.enter hpath hnew) ht⟩)
      fun ⟨c, d, bs, r, f, hd, hf, ht⟩ => ⟨c, d, bs, r, f, hd, hf, .head (.enter hpath hnew) ht⟩

/-! ## The invariant -/

/-- The finished nodes: no arrow leaves them, and none of them lies on a cycle. -/
def Settled (g : Digraph α) (finished : List α) : Prop :=
  ∀ a ∈ finished, (∀ b, g.Adj a b → b ∈ finished) ∧ ¬ Relation.TransGen g.Adj a a

/-- What is still to try from the nodes of the path: each of their successors is still on the list,
or finished, or further on in the path. -/
def Pending (g : Digraph α) (done : List α) : List (α × List α) → Prop
  | [] => True
  | (a, bs) :: rest =>
    (∀ b, g.Adj a b → b ∈ bs ∨ b ∈ done) ∧ (∀ b ∈ bs, g.Adj a b) ∧ g.Pending (a :: done) rest

/-- The invariant of the search. -/
structure Searching (g : Digraph α) (path : List (α × List α)) (finished : List α) : Prop where
  chain : (onPath path).reverse.IsChain g.Adj
  nodup : (onPath path).Nodup
  fresh : ∀ a ∈ onPath path, a ∉ finished
  pending : g.Pending finished path
  settled : g.Settled finished

omit [DecidableEq α] in
theorem Pending.mono {done done' : List α} (h : ∀ a ∈ done, a ∈ done')
    {path : List (α × List α)} (hp : g.Pending done path) : g.Pending done' path := by
  induction path generalizing done done' with
  | nil => trivial
  | cons frame rest ih =>
    obtain ⟨a, bs⟩ := frame
    obtain ⟨htry, hadj, hrest⟩ := hp
    refine ⟨fun b hb => (htry b hb).imp_right (h b), hadj, ih ?_ hrest⟩
    intro b hb
    rcases List.mem_cons.1 hb with rfl | hb
    · exact List.mem_cons_self
    · exact List.mem_cons_of_mem _ (h b hb)

omit [DecidableEq α] in
/-- A node all of whose arrows lead to finished nodes may be finished too. -/
theorem Settled.append {finished : List α} (h : g.Settled finished) {a : α} (ha : a ∉ finished)
    (hall : ∀ b, g.Adj a b → b ∈ finished) : g.Settled (finished ++ [a]) := by
  have hclosed : ∀ c ∈ finished, ∀ b, g.Adj c b → b ∈ finished := fun c hc => (h c hc).1
  intro c hc
  rcases List.mem_append.1 hc with hc | hc
  · exact ⟨fun b hb => List.mem_append_left _ (hclosed c hc b hb), (h c hc).2⟩
  · obtain rfl := List.mem_singleton.1 hc
    refine ⟨fun b hb => List.mem_append_left _ (hall b hb), fun hcycle => ?_⟩
    -- the first arrow of a cycle leads to a finished node, which would reach `c`
    obtain ⟨b, hcb, hbc⟩ := Relation.TransGen.head'_iff.1 hcycle
    exact ha (mem_of_reaches hclosed (hall b hcb) hbc)

/-- One turn keeps the invariant. -/
theorem Searching.turn {s t : List (α × List α) × List α} (h : g.Searching s.1 s.2)
    (ht : g.Turn s t) : g.Searching t.1 t.2 := by
  cases ht with
  | @leave a rest finished =>
    obtain ⟨htry, -, hrest⟩ := h.pending
    have hnodup : a ∉ onPath rest ∧ (onPath rest).Nodup := List.nodup_cons.1 h.nodup
    have hall : ∀ b, g.Adj a b → b ∈ finished := fun b hb =>
      (htry b hb).resolve_left List.not_mem_nil
    refine ⟨?_, hnodup.2, ?_, ?_, h.settled.append (h.fresh a List.mem_cons_self) hall⟩
    · have hchain := h.chain
      simp only [onPath, List.map_cons, List.reverse_cons] at hchain
      exact hchain.left_of_append
    · intro b hb
      rw [List.mem_append, List.mem_singleton, not_or]
      refine ⟨h.fresh b (List.mem_cons_of_mem _ hb), ?_⟩
      rintro rfl
      exact hnodup.1 hb
    · refine hrest.mono fun b hb => ?_
      rcases List.mem_cons.1 hb with rfl | hb
      · exact List.mem_append_right _ (List.mem_singleton_self b)
      · exact List.mem_append_left _ hb
  | @skip a b bs rest finished hpath hdone =>
    obtain ⟨htry, hadj, hrest⟩ := h.pending
    refine ⟨h.chain, h.nodup, h.fresh, ⟨?_, ?_, hrest⟩, h.settled⟩
    · intro c hc
      rcases htry c hc with hc | hc
      · rcases List.mem_cons.1 hc with rfl | hc
        · exact Or.inr hdone
        · exact Or.inl hc
      · exact Or.inr hc
    · exact fun c hc => hadj c (List.mem_cons_of_mem _ hc)
  | @enter a b bs rest finished hpath hnew =>
    obtain ⟨htry, hadj, hrest⟩ := h.pending
    refine ⟨?_, List.nodup_cons.2 ⟨hpath, h.nodup⟩, ?_, ⟨?_, ?_, ?_, ?_, ?_⟩, h.settled⟩
    · show (b :: onPath ((a, bs) :: rest)).reverse.IsChain g.Adj
      rw [List.isChain_reverse]
      refine (List.isChain_reverse.1 h.chain).cons fun c hc => ?_
      obtain rfl : a = c := by simpa [onPath] using hc
      exact hadj b List.mem_cons_self
    · intro c hc
      rcases List.mem_cons.1 hc with rfl | hc
      · exact hnew
      · exact h.fresh c hc
    · exact fun c hc => Or.inl (mem_successors.2 hc)
    · exact fun c hc => mem_successors.1 hc
    · intro c hc
      rcases htry c hc with hc | hc
      · rcases List.mem_cons.1 hc with rfl | hc
        · exact Or.inr List.mem_cons_self
        · exact Or.inl hc
      · exact Or.inr (List.mem_cons_of_mem _ hc)
    · exact fun c hc => hadj c (List.mem_cons_of_mem _ hc)
    · refine hrest.mono fun c hc => ?_
      rcases List.mem_cons.1 hc with rfl | hc
      · exact List.mem_cons_self
      · exact List.mem_cons_of_mem _ (List.mem_cons_of_mem _ hc)

theorem Searching.run {s t : List (α × List α) × List α} (h : g.Searching s.1 s.2)
    (ht : Relation.ReflTransGen g.Turn s t) : g.Searching t.1 t.2 := by
  induction ht with
  | refl => exact h
  | tail _ hturn ih => exact ih.turn hturn

/-- A turn loses no node: one that leaves the path is finished. -/
theorem Turn.mem {s t : List (α × List α) × List α} (ht : g.Turn s t) {a : α}
    (ha : a ∈ onPath s.1 ∨ a ∈ s.2) : a ∈ onPath t.1 ∨ a ∈ t.2 := by
  cases ht with
  | leave =>
    rcases ha with ha | ha
    · rcases List.mem_cons.1 ha with rfl | ha
      · exact Or.inr (List.mem_append_right _ (List.mem_singleton_self a))
      · exact Or.inl ha
    · exact Or.inr (List.mem_append_left _ ha)
  | skip => exact ha
  | enter => exact ha.imp_left (List.mem_cons_of_mem _)

theorem mem_of_run {s t : List (α × List α) × List α} (ht : Relation.ReflTransGen g.Turn s t)
    {a : α} (ha : a ∈ onPath s.1 ∨ a ∈ s.2) : a ∈ onPath t.1 ∨ a ∈ t.2 := by
  induction ht with
  | refl => exact ha
  | tail _ hturn ih => exact hturn.mem ih

/-- Where the path meets itself, its end from there on is a cycle. -/
theorem Searching.isCycle {a b : α} {bs : List α} {rest : List (α × List α)} {finished : List α}
    (h : g.Searching ((a, b :: bs) :: rest) finished) (hb : b ∈ onPath ((a, bs) :: rest)) :
    g.IsCycle ((onPath ((a, bs) :: rest)).reverse.dropWhile (· ≠ b)) := by
  have hsuffix := List.dropWhile_suffix (l := (onPath ((a, bs) :: rest)).reverse) (· ≠ b)
  obtain ⟨-, hadj, -⟩ := h.pending
  have hhead := List.head?_dropWhile_not (· ≠ b) (onPath ((a, bs) :: rest)).reverse
  have hne : (onPath ((a, bs) :: rest)).reverse.dropWhile (· ≠ b) ≠ [] := by
    rw [Ne, List.dropWhile_eq_nil_iff]
    intro hall
    simpa using hall b (List.mem_reverse.2 hb)
  have hlast : (onPath ((a, bs) :: rest)).reverse.getLast? = some a := by
    simp [onPath]
  refine ⟨(List.nodup_reverse.2 h.nodup).sublist hsuffix.sublist, h.chain.suffix hsuffix, ?_⟩
  generalize (onPath ((a, bs) :: rest)).reverse = path at hsuffix hhead hne hlast ⊢
  obtain ⟨before, hbefore⟩ := hsuffix
  obtain ⟨first, hfirst⟩ := Option.ne_none_iff_exists'.1 (mt List.head?_eq_none_iff.1 hne)
  rw [hfirst] at hhead
  obtain rfl : first = b := by simpa using hhead
  refine ⟨first, hfirst, a, ?_, hadj first List.mem_cons_self⟩
  rw [← hbefore, List.getLast?_append_of_ne_nil _ hne] at hlast
  exact hlast

/-- The search from one start keeps the finished nodes settled, or ends with a cycle. -/
theorem explore_start {finished : List α} (h : g.Settled finished) {start : α}
    (hstart : start ∉ finished) :
    (∃ finished', g.explore [(start, g.successors start)] finished = .ok finished' ∧
      g.Settled finished' ∧ start ∈ finished' ∧ ∀ a ∈ finished, a ∈ finished') ∨
    ∃ path, g.explore [(start, g.successors start)] finished = .error path ∧ g.IsCycle path := by
  have hinit : g.Searching [(start, g.successors start)] finished := by
    refine ⟨List.isChain_singleton start, List.nodup_singleton start, ?_, ?_, h⟩
    · intro a ha
      obtain rfl := List.mem_singleton.1 ha
      exact hstart
    · exact ⟨fun b hb => Or.inl (mem_successors.2 hb), fun b hb => mem_successors.1 hb, trivial⟩
  rcases explore_spec [(start, g.successors start)] finished with
    ⟨finished', hok, hrun⟩ | ⟨a, b, bs, rest, finished', hb, herr, hrun⟩
  · have hall : ∀ a, a ∈ onPath [(start, g.successors start)] ∨ a ∈ finished → a ∈ finished' :=
      fun a ha => (mem_of_run hrun ha).resolve_left List.not_mem_nil
    exact Or.inl ⟨finished', hok, (hinit.run hrun).settled,
      hall start (Or.inl List.mem_cons_self), fun a ha => hall a (Or.inr ha)⟩
  · exact Or.inr ⟨_, herr, (hinit.run hrun).isCycle hb⟩

/-! ## All starts in turn -/

/-- The search from one start, unless it is finished already. -/
def exploreFrom (g : Digraph α) (finished : List α) (start : α) : Except (List α) (List α) :=
  if start ∈ finished then .ok finished else g.explore [(start, g.successors start)] finished

theorem findCycle_eq (g : Digraph α) (starts : List α) :
    g.findCycle starts =
      match starts.foldlM g.exploreFrom [] with
      | .ok _ => none
      | .error cycle => some cycle := rfl

omit [DecidableEq α] in
theorem settled_nil (g : Digraph α) : g.Settled [] :=
  fun _ ha => absurd ha List.not_mem_nil

theorem foldlM_exploreFrom {finished : List α} (h : g.Settled finished) (starts : List α) :
    (∃ finished', starts.foldlM g.exploreFrom finished = .ok finished' ∧ g.Settled finished' ∧
      (∀ a ∈ starts, a ∈ finished') ∧ ∀ a ∈ finished, a ∈ finished') ∨
    ∃ path, starts.foldlM g.exploreFrom finished = .error path ∧ g.IsCycle path := by
  induction starts generalizing finished with
  | nil => exact Or.inl ⟨finished, rfl, h, fun a ha => absurd ha List.not_mem_nil, fun a ha => ha⟩
  | cons start starts ih =>
    rw [List.foldlM_cons]
    have hstep : (∃ finished', g.exploreFrom finished start = .ok finished' ∧ g.Settled finished' ∧
        start ∈ finished' ∧ ∀ a ∈ finished, a ∈ finished') ∨
        ∃ path, g.exploreFrom finished start = .error path ∧ g.IsCycle path := by
      unfold exploreFrom
      by_cases hstart : start ∈ finished
      · rw [if_pos hstart]
        exact Or.inl ⟨finished, rfl, h, hstart, fun a ha => ha⟩
      · rw [if_neg hstart]
        exact explore_start h hstart
    rcases hstep with ⟨finished', hok, hsettled, hmem, hsub⟩ | ⟨path, herr, hcycle⟩
    · rw [hok]
      refine (ih hsettled).imp_left ?_
      rintro ⟨last, hlast, hset, hstarts, hsub'⟩
      refine ⟨last, hlast, hset, ?_, fun a ha => hsub' a (hsub a ha)⟩
      intro a ha
      rcases List.mem_cons.1 ha with rfl | ha
      · exact hsub' a hmem
      · exact hstarts a ha
    · rw [herr]
      exact Or.inr ⟨path, rfl, hcycle⟩

/-- What the search returns is a cycle. -/
theorem isCycle_of_findCycle {starts path : List α} (h : g.findCycle starts = some path) :
    g.IsCycle path := by
  rw [findCycle_eq] at h
  rcases foldlM_exploreFrom g.settled_nil starts with ⟨finished, hok, -⟩ | ⟨cycle, herr, hcycle⟩
  · rw [hok] at h
    exact nomatch h
  · rw [herr] at h
    exact Option.some.inj h ▸ hcycle

/-- If the search returns nothing, none of the starts lies on a cycle or leads to one. -/
theorem not_transGen_of_findCycle {starts : List α} (h : g.findCycle starts = none) {a b : α}
    (ha : a ∈ starts) (hab : g.Reaches a b) : ¬ Relation.TransGen g.Adj b b := by
  rw [findCycle_eq] at h
  rcases foldlM_exploreFrom g.settled_nil starts with
    ⟨finished, hok, hsettled, hstarts, -⟩ | ⟨cycle, herr, -⟩
  · have hclosed : ∀ c ∈ finished, ∀ d, g.Adj c d → d ∈ finished := fun c hc => (hsettled c hc).1
    exact (hsettled b (mem_of_reaches hclosed (hstarts a ha) hab)).2
  · rw [herr] at h
    exact nomatch h

/-- If all nodes on cycles are starts, the search returns something exactly if there is a cycle. -/
theorem isSome_findCycle_iff {starts : List α}
    (hstarts : ∀ a, Relation.TransGen g.Adj a a → a ∈ starts) :
    (g.findCycle starts).isSome ↔ g.Cyclic := by
  constructor
  · intro h
    obtain ⟨path, hpath⟩ := Option.isSome_iff_exists.1 h
    have hcycle := isCycle_of_findCycle hpath
    obtain ⟨a, ha⟩ := List.exists_mem_of_ne_nil path hcycle.ne_nil
    exact ⟨a, hcycle.transGen ha⟩
  · rintro ⟨a, ha⟩
    by_contra hnone
    rw [Bool.not_eq_true, Option.isSome_eq_false_iff, Option.isNone_iff_eq_none] at hnone
    exact not_transGen_of_findCycle hnone (hstarts a ha) (Reaches.refl a) ha

end Digraph

end Lineage
