import Lineage.Proofs.CycleSearch
import Lineage.Proofs.FirstOccurrences
import Mathlib.Data.List.Perm.Subperm

/-!
# Breadth-first order

`Digraph.closure` keeps one queue and never returns to a node that it has seen. In a graph without
cycles it finds the nodes in the same order as if it followed all paths, the shorter ones first, and
wrote down each node where it comes up first (`closure_eq_eraseDups`).
-/

namespace Lineage

namespace Digraph

variable {α : Type} [DecidableEq α] {g : Digraph α}

/-! ## Layers -/

/-- Where paths with a number of arrows lead from some nodes, in the order of the arrows. A node
comes up once for each path. -/
def layer (g : Digraph α) : Nat → List α → List α
  | 0, nodes => nodes
  | n + 1, nodes => g.layer n (nodes.flatMap g.successors)

/-- Where all paths lead from some nodes, shorter paths first. Without cycles, no path has more
arrows than the graph. -/
def layers (g : Digraph α) (nodes : List α) : List α :=
  (List.range (g.arrows.length + 1)).flatMap fun n => g.layer n nodes

/-- The breadth-first order of what some nodes reach: each node stands where the paths from these
lead to it first. -/
def breadthFirst (g : Digraph α) (nodes : List α) : List α :=
  (g.layers nodes).eraseDups

theorem mem_flatMap_successors {nodes : List α} {b : α} :
    b ∈ nodes.flatMap g.successors ↔ ∃ a ∈ nodes, g.Adj a b := by
  simp only [List.mem_flatMap, mem_successors]

/-- A layer is where paths of its length end. All nodes of a path but the last have arrows. -/
theorem exists_path_of_mem_layer {n : Nat} {nodes : List α} {b : α} (h : b ∈ g.layer n nodes) :
    ∃ path, path.length = n ∧ (path ++ [b]).IsChain g.Adj ∧ (∃ a ∈ (path ++ [b]).head?, a ∈ nodes) ∧
      ∀ a ∈ path, a ∈ g.arrows.map (·.1) := by
  induction n generalizing nodes with
  | zero => exact ⟨[], rfl, List.isChain_singleton b, ⟨b, rfl, h⟩, fun a ha => nomatch ha⟩
  | succ n ih =>
    obtain ⟨path, hlength, hchain, ⟨c, hc, hmem⟩, hsources⟩ := ih h
    obtain ⟨a, ha, hac⟩ := mem_flatMap_successors.1 hmem
    refine ⟨a :: path, congrArg (· + 1) hlength, ?_, ⟨a, rfl, ha⟩, ?_⟩
    · refine hchain.cons fun d hd => ?_
      rwa [Option.mem_unique hd hc]
    · exact List.forall_mem_cons.2 ⟨List.mem_map_of_mem (f := (·.1)) hac, hsources⟩

theorem layer_eq_nil (hacyclic : ¬ g.Cyclic) {n : Nat} (hn : g.arrows.length < n)
    (nodes : List α) : g.layer n nodes = [] := by
  rw [List.eq_nil_iff_forall_not_mem]
  intro b hb
  obtain ⟨path, rfl, hchain, -, hsources⟩ := exists_path_of_mem_layer hb
  have hnodup := (nodup_of_isChain (not_exists.1 hacyclic) hchain).of_append_left
  have hcount := (hnodup.subperm hsources).length_le
  rw [List.length_map] at hcount
  omega

/-! ## The queue -/

theorem closure_append_of_subset {seen known queue : List α} (h : ∀ a ∈ known, a ∈ seen) :
    g.closure seen (known ++ queue) = g.closure seen queue := by
  induction known with
  | nil => rfl
  | cons a known ih =>
    obtain ⟨ha, hknown⟩ := List.forall_mem_cons.1 h
    rw [List.cons_append, closure_cons_of_mem ha, ih hknown]

/-- What has been seen or queued need not be queued again. -/
theorem closure_append_known {seen queue known rest : List α}
    (h : ∀ a ∈ known, a ∈ seen ∨ a ∈ queue) :
    g.closure seen (queue ++ (known ++ rest)) = g.closure seen (queue ++ rest) := by
  induction queue generalizing seen rest with
  | nil => exact closure_append_of_subset fun a ha => (h a ha).resolve_right List.not_mem_nil
  | cons b queue ih =>
    rw [List.cons_append, List.cons_append]
    by_cases hb : b ∈ seen
    · rw [closure_cons_of_mem hb, closure_cons_of_mem hb]
      exact ih fun a ha => mem_or_mem_of_cons hb (h a ha)
    · rw [closure_cons_of_not_mem hb, closure_cons_of_not_mem hb]
      simp only [List.append_assoc]
      exact ih fun a ha => mem_concat_or_mem_of_cons (h a ha)

/-- The search takes the nodes of a queue one after the other, and what they lead to waits. -/
theorem closure_append_eq {seen queue rest : List α} (hnodup : seen.Nodup)
    (hopen : ∀ a ∈ seen, ∀ b, g.Adj a b → b ∈ seen ∨ b ∈ queue ++ rest) :
    g.closure seen (queue ++ rest) =
      g.closure (seen ++ queue).eraseDups (rest ++ queue.flatMap g.successors) := by
  induction queue generalizing seen rest with
  | nil =>
    rw [List.append_nil, eraseDups_of_nodup hnodup, List.flatMap_nil, List.append_nil]
    rfl
  | cons a queue ih =>
    rw [List.flatMap_cons, ← List.append_assoc rest, List.cons_append]
    by_cases ha : a ∈ seen
    · -- what the node leads to is queued already, so that it may as well be queued once more
      have hrest : ∀ c ∈ seen, ∀ b, g.Adj c b → b ∈ seen ∨ b ∈ queue ++ rest :=
        fun c hc b hcb => mem_or_mem_of_cons ha (hopen c hc b hcb)
      have hknown : g.closure seen (queue ++ rest ++ (g.successors a ++ [])) =
          g.closure seen (queue ++ rest ++ []) :=
        closure_append_known fun b hb => hrest a ha b (mem_successors.1 hb)
      rw [List.append_nil, List.append_nil, List.append_assoc] at hknown
      rw [closure_cons_of_mem ha, eraseDups_append_cons_of_mem ha, ← hknown]
      refine ih hnodup fun c hc b hcb => (hrest c hc b hcb).imp_right fun hb => ?_
      rw [← List.append_assoc]
      exact List.mem_append_left _ hb
    · rw [closure_cons_of_not_mem ha, List.append_cons seen a queue, List.append_assoc]
      refine ih ?_ ?_
      · rw [List.nodup_append']
        exact ⟨hnodup, List.nodup_singleton a, List.disjoint_singleton.2 ha⟩
      · rw [← List.append_assoc]
        exact open_concat hopen

/-! ## Layer by layer -/

theorem closure_layer {seen queue : List α} (hnodup : seen.Nodup)
    (hopen : ∀ a ∈ seen, ∀ b, g.Adj a b → b ∈ seen ∨ b ∈ queue) (n : Nat) :
    g.closure seen queue =
      g.closure (seen ++ (List.range n).flatMap fun k => g.layer k queue).eraseDups
        (g.layer n queue) := by
  induction n generalizing seen queue with
  | zero =>
    rw [List.range_zero, List.flatMap_nil, List.append_nil, eraseDups_of_nodup hnodup]
    rfl
  | succ n ih =>
    have hfirst : g.closure seen (queue ++ []) =
        g.closure (seen ++ queue).eraseDups ([] ++ queue.flatMap g.successors) :=
      closure_append_eq hnodup fun a ha b hab => (List.append_nil queue).symm ▸ hopen a ha b hab
    rw [List.append_nil, List.nil_append] at hfirst
    rw [hfirst, ih (nodup_eraseDups _), eraseDups_append_left, List.append_assoc,
      List.range_succ_eq_map, List.flatMap_cons, List.flatMap_map]
    · rfl
    · intro a ha b hab
      rw [List.mem_eraseDups, List.mem_append] at ha ⊢
      rcases ha with hseen | hqueue
      · exact Or.inl (hopen a hseen b hab)
      · exact Or.inr (mem_flatMap_successors.2 ⟨a, hqueue, hab⟩)

/-- Without cycles, the search adds the nodes of all layers, each where it comes up first. -/
theorem closure_eq_eraseDups (hacyclic : ¬ g.Cyclic) {seen queue : List α} (hnodup : seen.Nodup)
    (hopen : ∀ a ∈ seen, ∀ b, g.Adj a b → b ∈ seen ∨ b ∈ queue) :
    g.closure seen queue = (seen ++ g.layers queue).eraseDups := by
  rw [closure_layer hnodup hopen (g.arrows.length + 1),
    layer_eq_nil hacyclic (Nat.lt_succ_self _), closure_nil]
  rfl

example : (Digraph.mk [(1, 2), (1, 3), (2, 4), (3, 2)]).breadthFirst [1] = [1, 2, 3, 4] := by
  decide

end Digraph

end Lineage
