import Lineage.Digraph
import Mathlib.Logic.Relation

/-!
# What breadth-first search finds

`Digraph.closure` against the relation `Reaches` of its arrows: what it finds is reached from the
queue (`reaches_of_mem_closure`), it stops at a set that no arrow leaves (`closure_closed`), and so
a search that starts with nothing seen finds exactly what can be reached (`mem_closure_nil`).
-/

namespace Lineage

namespace Digraph

variable {α : Type} {g : Digraph α}

/-- A path of arrows, perhaps without any, leads from one node to another. -/
def Reaches (g : Digraph α) : α → α → Prop :=
  Relation.ReflTransGen g.Adj

theorem Reaches.refl (a : α) : g.Reaches a a := Relation.ReflTransGen.refl

theorem Reaches.trans {a b c : α} (hab : g.Reaches a b) (hbc : g.Reaches b c) : g.Reaches a c :=
  Relation.ReflTransGen.trans hab hbc

theorem Reaches.head {a b c : α} (hab : g.Adj a b) (hbc : g.Reaches b c) : g.Reaches a c :=
  Relation.ReflTransGen.head hab hbc

/-- A set that no arrow leaves holds all that its nodes reach. -/
theorem mem_of_reaches {seen : List α} (hclosed : ∀ a ∈ seen, ∀ b, g.Adj a b → b ∈ seen)
    {a b : α} (ha : a ∈ seen) (hab : g.Reaches a b) : b ∈ seen := by
  induction hab with
  | refl => exact ha
  | tail _ hbc ih => exact hclosed _ ih _ hbc

/-! ## One turn of the search -/

theorem mem_or_mem_of_cons {seen queue : List α} {a b : α} (ha : a ∈ seen)
    (hb : b ∈ seen ∨ b ∈ a :: queue) : b ∈ seen ∨ b ∈ queue := by
  rcases hb with hseen | hqueue
  · exact Or.inl hseen
  · rcases List.mem_cons.1 hqueue with rfl | hqueue
    · exact Or.inl ha
    · exact Or.inr hqueue

theorem mem_concat_or_mem_of_cons {seen queue : List α} {a b : α}
    (hb : b ∈ seen ∨ b ∈ a :: queue) : b ∈ seen ++ [a] ∨ b ∈ queue :=
  mem_or_mem_of_cons (List.mem_append_right _ (List.mem_singleton_self a))
    (hb.imp_left (List.mem_append_left _))

variable [DecidableEq α]

/-- When a node is seen, what it leads to waits in the queue. -/
theorem open_concat {seen queue : List α} {a : α}
    (hopen : ∀ c ∈ seen, ∀ b, g.Adj c b → b ∈ seen ∨ b ∈ a :: queue) :
    ∀ c ∈ seen ++ [a], ∀ b, g.Adj c b → b ∈ seen ++ [a] ∨ b ∈ queue ++ g.successors a := by
  intro c hc b hcb
  rcases List.mem_append.1 hc with hc | hc
  · exact (mem_concat_or_mem_of_cons (hopen c hc b hcb)).imp_right (List.mem_append_left _)
  · obtain rfl := List.mem_singleton.1 hc
    exact Or.inr (List.mem_append_right _ (mem_successors.2 hcb))

theorem closure_nil (seen : List α) : g.closure seen [] = seen := by
  rw [closure]

theorem closure_cons_of_mem {seen queue : List α} {a : α} (h : a ∈ seen) :
    g.closure seen (a :: queue) = g.closure seen queue := by
  rw [closure, dif_pos h]

theorem closure_cons_of_not_mem {seen queue : List α} {a : α} (h : a ∉ seen) :
    g.closure seen (a :: queue) = g.closure (seen ++ [a]) (queue ++ g.successors a) := by
  rw [closure, dif_neg h]

/-- The search depends on the graph only through the successors of its nodes. -/
theorem closure_congr {g' : Digraph α} (h : ∀ a, g.successors a = g'.successors a)
    (seen queue : List α) : g.closure seen queue = g'.closure seen queue := by
  induction seen, queue using closure.induct g with
  | case1 seen => rw [closure_nil, closure_nil]
  | case2 seen a queue hmem ih => rw [closure_cons_of_mem hmem, closure_cons_of_mem hmem, ih]
  | case3 seen a queue hmem ih =>
    rw [closure_cons_of_not_mem hmem, closure_cons_of_not_mem hmem, ih, h a]

/-! ## What a whole search does -/

theorem mem_closure_of_mem {seen queue : List α} {a : α} (h : a ∈ seen ∨ a ∈ queue) :
    a ∈ g.closure seen queue := by
  induction seen, queue using closure.induct g with
  | case1 seen =>
    rw [closure_nil]
    exact h.resolve_right List.not_mem_nil
  | case2 seen b queue hmem ih =>
    rw [closure_cons_of_mem hmem]
    exact ih (mem_or_mem_of_cons hmem h)
  | case3 seen b queue hmem ih =>
    rw [closure_cons_of_not_mem hmem]
    exact ih ((mem_concat_or_mem_of_cons h).imp_right (List.mem_append_left _))

/-- What the search finds was seen before or is reached from the queue. -/
theorem reaches_of_mem_closure {seen queue : List α} {b : α} (h : b ∈ g.closure seen queue) :
    b ∈ seen ∨ ∃ a ∈ queue, g.Reaches a b := by
  induction seen, queue using closure.induct g with
  | case1 seen =>
    rw [closure_nil] at h
    exact Or.inl h
  | case2 seen a queue hmem ih =>
    rw [closure_cons_of_mem hmem] at h
    exact (ih h).imp_right fun ⟨c, hc, hcb⟩ => ⟨c, List.mem_cons_of_mem _ hc, hcb⟩
  | case3 seen a queue hmem ih =>
    rw [closure_cons_of_not_mem hmem] at h
    rcases ih h with hb | ⟨c, hc, hcb⟩
    · rcases List.mem_append.1 hb with hb | hb
      · exact Or.inl hb
      · obtain rfl := List.mem_singleton.1 hb
        exact Or.inr ⟨b, List.mem_cons_self, Reaches.refl b⟩
    · rcases List.mem_append.1 hc with hc | hc
      · exact Or.inr ⟨c, List.mem_cons_of_mem _ hc, hcb⟩
      · exact Or.inr ⟨a, List.mem_cons_self, Reaches.head (mem_successors.1 hc) hcb⟩

/-- If the arrows of the nodes seen lead to nodes seen or queued, then no arrow leaves what the
search finds. -/
theorem closure_closed {seen queue : List α}
    (hopen : ∀ a ∈ seen, ∀ b, g.Adj a b → b ∈ seen ∨ b ∈ queue) :
    ∀ a ∈ g.closure seen queue, ∀ b, g.Adj a b → b ∈ g.closure seen queue := by
  induction seen, queue using closure.induct g with
  | case1 seen =>
    rw [closure_nil]
    intro a ha b hab
    exact (hopen a ha b hab).resolve_right List.not_mem_nil
  | case2 seen c queue hmem ih =>
    rw [closure_cons_of_mem hmem]
    exact ih fun a ha b hab => mem_or_mem_of_cons hmem (hopen a ha b hab)
  | case3 seen c queue hmem ih =>
    rw [closure_cons_of_not_mem hmem]
    exact ih (open_concat hopen)

/-- A search that starts with a set that no arrow leaves adds exactly what the queue reaches. -/
theorem mem_closure_iff {seen queue : List α} {b : α}
    (hseen : ∀ a ∈ seen, ∀ b, g.Adj a b → b ∈ seen) :
    b ∈ g.closure seen queue ↔ b ∈ seen ∨ ∃ a ∈ queue, g.Reaches a b := by
  constructor
  · exact reaches_of_mem_closure
  · rintro (hb | ⟨a, ha, hab⟩)
    · exact mem_closure_of_mem (Or.inl hb)
    · have hclosed : ∀ a ∈ g.closure seen queue, ∀ b, g.Adj a b → b ∈ g.closure seen queue :=
        closure_closed fun a ha b hab => Or.inl (hseen a ha b hab)
      exact mem_of_reaches hclosed (mem_closure_of_mem (Or.inr ha)) hab

/-- A search that starts with nothing seen finds exactly what the queue reaches. -/
theorem mem_closure_nil {queue : List α} {b : α} :
    b ∈ g.closure [] queue ↔ ∃ a ∈ queue, g.Reaches a b := by
  rw [mem_closure_iff fun a ha => absurd ha List.not_mem_nil]
  exact or_iff_right List.not_mem_nil

end Digraph

end Lineage
