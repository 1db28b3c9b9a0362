import Lineage.Graph.Basic
import Lineage.Proofs.CycleSearch
import Mathlib.Data.Finset.Card
import Mathlib.Data.Finset.Dedup
import Mathlib.Data.List.Chain
import Mathlib.Data.List.Perm.Subperm
import Mathlib.Logic.Relation

/-!
# Walks along links

`follow` meets the names that single links lead to, one after the other. A walk that searches for
the first name with a property meets no name twice before it, so that a bound on the names of the
walk bounds the search (`findSome?_follow_stable`).
-/

namespace Lineage

variable {link : TypeName → Option TypeName}

/-- The name some links away from a name. -/
def hop (link : TypeName → Option TypeName) : Nat → TypeName → Option TypeName
  | 0, name => some name
  | n + 1, name => (link name).bind (hop link n)

theorem hop_add (m n : Nat) (name : TypeName) :
    hop link (m + n) name = (hop link m name).bind (hop link n) := by
  induction m generalizing name with
  | zero => rw [Nat.zero_add]; rfl
  | succ m ih =>
    rw [Nat.succ_add, hop, hop]
    cases link name with
    | none => rfl
    | some next => exact ih next

theorem follow_succ (link : TypeName → Option TypeName) (bound : Nat) (name : TypeName) :
    follow link (bound + 1) name =
      match link name with
      | none => []
      | some next => next :: follow link bound next := rfl

theorem follow_congr {link' : TypeName → Option TypeName} (h : ∀ name, link name = link' name)
    (bound : Nat) (name : TypeName) : follow link bound name = follow link' bound name := by
  rw [funext h]

theorem getElem?_follow (bound k : Nat) (name : TypeName) :
    (name :: follow link bound name)[k]? = if k ≤ bound then hop link k name else none := by
  induction bound generalizing k name with
  | zero => cases k <;> rfl
  | succ bound ih =>
    cases k with
    | zero => rfl
    | succ k =>
      rw [List.getElem?_cons_succ, follow_succ, hop]
      cases link name with
      | none => simp
      | some next =>
        rw [ih, Option.bind_some]
        simp only [Nat.succ_le_succ_iff]

/-- The first names of a walk do not depend on how long it goes on. -/
theorem take_follow {k bound : Nat} (h : k ≤ bound) (name : TypeName) :
    (name :: follow link bound name).take (k + 1) = name :: follow link k name := by
  apply List.ext_getElem?
  intro i
  rw [List.getElem?_take, getElem?_follow, getElem?_follow]
  split_ifs <;> first | rfl | omega

theorem length_follow_le (bound : Nat) (name : TypeName) :
    (follow link bound name).length ≤ bound := by
  induction bound generalizing name with
  | zero => exact le_rfl
  | succ bound ih =>
    rw [follow_succ]
    cases link name with
    | none => exact Nat.zero_le _
    | some next => exact Nat.succ_le_succ (ih next)

theorem length_le_of_follow {bound : Nat} {name a : TypeName} {before after : List TypeName}
    (hwalk : name :: follow link bound name = before ++ a :: after) : before.length ≤ bound := by
  have hlength := congrArg List.length hwalk
  rw [List.length_cons, List.length_append, List.length_cons] at hlength
  have : (follow link bound name).length ≤ bound := length_follow_le bound name
  omega

theorem isChain_follow (bound : Nat) (name : TypeName) :
    (name :: follow link bound name).IsChain fun a b => link a = some b := by
  induction bound generalizing name with
  | zero => exact List.isChain_singleton name
  | succ bound ih =>
    rw [follow_succ]
    cases h : link name with
    | none => exact List.isChain_singleton name
    | some next => exact List.isChain_cons_cons.2 ⟨h, ih next⟩

/-- A walk that does not use up its bound ends where no link leads on. -/
theorem follow_succ_eq {bound : Nat} {name : TypeName}
    (h : (follow link (bound + 1) name).length ≤ bound) :
    follow link (bound + 1) name = follow link bound name := by
  induction bound generalizing name with
  | zero => exact List.eq_nil_of_length_eq_zero (Nat.le_zero.1 h)
  | succ bound ih =>
    rw [follow_succ] at h
    rw [follow_succ, follow_succ]
    cases hnext : link name with
    | none => rfl
    | some next =>
      rw [hnext] at h
      exact congrArg (next :: ·) (ih (Nat.le_of_succ_le_succ h))

/-- A walk that uses up its bound meets only names with links before its last one. -/
theorem linked_of_length {bound : Nat} {name : TypeName}
    (h : (follow link (bound + 1) name).length = bound + 1) :
    ∀ a ∈ name :: follow link bound name, (link a).isSome := by
  induction bound generalizing name with
  | zero =>
    intro a ha
    obtain rfl := List.mem_singleton.1 ha
    cases hnext : link a with
    | none =>
      rw [follow_succ, hnext] at h
      exact nomatch h
    | some next => rfl
  | succ bound ih =>
    rw [follow_succ] at h
    cases hnext : link name with
    | none =>
      rw [hnext] at h
      exact nomatch h
    | some next =>
      rw [hnext] at h
      intro a ha
      rw [follow_succ, hnext] at ha
      rcases List.mem_cons.1 ha with rfl | ha
      · rw [hnext]
        rfl
      · exact ih (Nat.succ.inj h) a ha

/-- Links that lead in no circle meet no name twice. -/
theorem nodup_follow (hacyclic : ∀ a, ¬ Relation.TransGen (fun a b => link a = some b) a a)
    (bound : Nat) (name : TypeName) : (name :: follow link bound name).Nodup :=
  Digraph.nodup_of_isChain hacyclic (isChain_follow bound name)

/-- Where links lead in no circle, a bound as large as the number of names with links is enough. -/
theorem follow_stable {names : List TypeName} (hnames : ∀ a, (link a).isSome → a ∈ names)
    (hacyclic : ∀ a, ¬ Relation.TransGen (fun a b => link a = some b) a a) {m n : Nat}
    (hm : names.length ≤ m) (hn : names.length ≤ n) (name : TypeName) :
    follow link m name = follow link n name := by
  have hstep : ∀ n, names.length ≤ n → follow link (n + 1) name = follow link n name := by
    intro n hn
    by_contra hne
    have hlength : (follow link (n + 1) name).length = n + 1 := by
      have hle : (follow link (n + 1) name).length ≤ n + 1 := length_follow_le _ _
      have hlt : ¬ (follow link (n + 1) name).length ≤ n := fun h => hne (follow_succ_eq h)
      omega
    -- `n + 1` names with links would be too many
    have hsub : (name :: follow link n name) ⊆ names := fun a ha =>
      hnames a (linked_of_length hlength a ha)
    have hcount := ((nodup_follow hacyclic n name).subperm hsub).length_le
    have htake := congrArg List.length (show (name :: follow link (n + 1) name).take (n + 1) =
      name :: follow link n name from take_follow (Nat.le_succ n) name)
    rw [List.length_take, List.length_cons, hlength] at htake
    omega
  have hall : ∀ k, follow link (names.length + k) name = follow link names.length name := by
    intro k
    induction k with
    | zero => rfl
    | succ k ih => rw [← Nat.add_assoc, hstep _ (Nat.le_add_right _ _), ih]
  rw [← Nat.add_sub_cancel' hm, ← Nat.add_sub_cancel' hn, hall, hall]

theorem isSome_of_follow {bound : Nat} {name next : TypeName} {before after : List TypeName}
    (hwalk : name :: follow link bound name = before ++ next :: after) :
    ∀ a ∈ before, (link a).isSome := by
  intro a ha
  have hchain : (before ++ next :: after).IsChain fun a b => link a = some b :=
    hwalk ▸ isChain_follow bound name
  obtain ⟨front, back, rfl⟩ := List.append_of_mem ha
  obtain ⟨b, rest, hrest⟩ := List.exists_cons_of_ne_nil (show back ++ next :: after ≠ [] by simp)
  rw [List.append_assoc, List.cons_append, hrest] at hchain
  exact Option.isSome_of_eq_some (List.isChain_cons_cons.1 hchain.right_of_append).1

/-- Two walks go together as far as the links of one are links of the other. -/
theorem follow_of_prefix {link' : TypeName → Option TypeName} {m n : Nat} {name next : TypeName}
    {before after : List TypeName} (hwalk : name :: follow link m name = before ++ next :: after)
    (hlinks : ∀ a ∈ before, ∀ b, link a = some b → link' a = some b) (hn : before.length ≤ n) :
    ∃ rest, name :: follow link' n name = before ++ next :: rest := by
  induction before generalizing m n name with
  | nil =>
    obtain ⟨rfl, -⟩ := List.cons.inj hwalk
    exact ⟨follow link' n name, rfl⟩
  | cons a before ih =>
    obtain ⟨rfl, hrest⟩ := List.cons.inj hwalk
    cases m with
    | zero =>
      have hnil := congrArg List.length hrest
      simp [follow] at hnil
    | succ m =>
      rw [follow_succ] at hrest
      cases hb : link name with
      | none =>
        rw [hb] at hrest
        have hnil := congrArg List.length hrest
        simp at hnil
      | some b =>
        rw [hb] at hrest
        cases n with
        | zero => exact absurd hn (Nat.not_succ_le_zero _)
        | succ n =>
          obtain ⟨rest, hwalk'⟩ := ih hrest
            (fun a ha => hlinks a (List.mem_cons_of_mem _ ha)) (Nat.le_of_succ_le_succ hn)
          refine ⟨rest, ?_⟩
          rw [follow_succ, hlinks name List.mem_cons_self b hb]
          exact congrArg (name :: ·) hwalk'

/-- A walk that ends where a property first holds meets no name twice. -/
theorem nodup_of_first {p : TypeName → Prop} {bound : Nat} {name last : TypeName}
    {before : List TypeName} (hwalk : name :: follow link bound name = before ++ [last])
    (hlast : p last) (hbefore : ∀ a ∈ before, ¬ p a) : (before ++ [last]).Nodup := by
  rw [List.nodup_iff_getElem?_ne_getElem?]
  intro i j hij hj heq
  have hlength : (before ++ [last]).length = before.length + 1 := List.length_append
  have hbound := length_le_of_follow hwalk
  have hget : ∀ k ≤ before.length, (before ++ [last])[k]? = hop link k name := by
    intro k hk
    rw [← hwalk, getElem?_follow, if_pos (hk.trans hbound)]
  -- names that repeat go on repeating, so the last one has been met before
  rw [hget i (by omega), hget j (by omega)] at heq
  obtain ⟨rest, hrest⟩ : ∃ rest, before.length = j + rest := ⟨before.length - j, by omega⟩
  have hagain : hop link (i + rest) name = some last := by
    rw [hop_add, heq, ← hop_add, ← hrest, ← hget _ le_rfl, List.getElem?_concat_length]
  rw [← hget (i + rest) (by omega), List.getElem?_append_left (by omega)] at hagain
  exact hbefore last (List.mem_of_getElem? hagain) hlast

/-- If a walk meets at most `N` names, a search along it need not go further than that. -/
theorem findSome?_follow_of_card {β : Type} {f : TypeName → Option β} {name : TypeName} {N : Nat}
    (hN : ∀ k, (name :: follow link k name).toFinset.card ≤ N) {m n : Nat} (hn : N ≤ n + 1) {b : β}
    (h : (name :: follow link m name).findSome? f = some b) :
    (name :: follow link n name).findSome? f = some b := by
  obtain ⟨before, a, after, hwalk, ha, hbefore⟩ := List.findSome?_eq_some_iff.1 h
  have hshort : name :: follow link before.length name = before ++ [a] := by
    rw [← take_follow (length_le_of_follow hwalk), hwalk, List.take_append,
      List.take_of_length_le (Nat.le_succ _), Nat.add_sub_cancel_left]
    rfl
  have hnodup : (before ++ [a]).Nodup :=
    nodup_of_first (p := fun c => f c ≠ none) hshort (by rw [ha]; exact Option.some_ne_none b)
      fun c hc hne => hne (hbefore c hc)
  have hcard := hN before.length
  rw [hshort, List.toFinset_card_of_nodup hnodup, List.length_append, List.length_singleton]
    at hcard
  have hlong : (name :: follow link n name).take (before.length + 1) = before ++ [a] := by
    rw [take_follow (by omega), hshort]
  rw [← List.take_append_drop (before.length + 1) (name :: follow link n name), hlong]
  exact List.findSome?_eq_some_iff.2
    ⟨before, a, (name :: follow link n name).drop (before.length + 1),
      List.append_assoc before [a] _, ha, hbefore⟩

theorem findSome?_follow_stable {β : Type} {f : TypeName → Option β} {name : TypeName} {N : Nat}
    (hN : ∀ k, (name :: follow link k name).toFinset.card ≤ N) {m n : Nat} (hm : N ≤ m + 1)
    (hn : N ≤ n + 1) :
    (name :: follow link m name).findSome? f = (name :: follow link n name).findSome? f := by
  apply Option.ext
  intro b
  exact ⟨findSome?_follow_of_card hN hn, findSome?_follow_of_card hN hm⟩

/-! ## Walks to their end -/

section Whole

variable {walk : TypeName → List TypeName}
  (hwalk : ∀ name, walk name =
    match link name with
    | none => []
    | some next => next :: walk next)

include hwalk

/-- Where all walks come to an end, links lead nowhere without end. -/
theorem wellFounded_link : WellFounded fun next name => link name = some next := by
  refine Subrelation.wf (r := InvImage (· < ·) fun name => (walk name).length) ?_
    (InvImage.wf _ Nat.lt_wfRel.wf)
  intro next name h
  show (walk next).length < (walk name).length
  rw [hwalk name, h]
  exact Nat.lt_succ_self _

theorem mem_walk_iff {name a : TypeName} :
    a ∈ name :: walk name ↔ Relation.ReflTransGen (fun a b => link a = some b) name a := by
  constructor
  · induction name using (wellFounded_link hwalk).induction with
    | _ name ih =>
      intro ha
      rcases List.mem_cons.1 ha with rfl | ha
      · exact .refl
      · rw [hwalk] at ha
        cases hnext : link name with
        | none =>
          rw [hnext] at ha
          exact absurd ha List.not_mem_nil
        | some next =>
          rw [hnext] at ha
          exact .head hnext (ih next hnext ha)
  · intro ha
    induction ha using Relation.ReflTransGen.head_induction_on with
    | refl => exact List.mem_cons_self
    | head hnext _ ih =>
      rw [hwalk, hnext]
      exact List.mem_cons_of_mem _ ih

theorem exists_last_of_walk (name : TypeName) :
    ∃ last, (name :: walk name).getLast? = some last ∧ link last = none := by
  induction name using (wellFounded_link hwalk).induction with
  | _ name ih =>
    rw [hwalk]
    cases hnext : link name with
    | none => exact ⟨name, rfl, hnext⟩
    | some next =>
      obtain ⟨last, hlast, hend⟩ := ih next hnext
      exact ⟨last, hlast, hend⟩

end Whole

end Lineage
