/-!
# Directed graphs given by their arrows

A digraph is a list of arrows, and the successors of a node come in the order of its arrows.
`closure` collects what can be reached, breadth first; `findCycle` searches depth first for a cycle
and returns the one that it meets first.
-/

namespace Lineage

/-- A directed graph: its arrows, in order. -/
structure Digraph (α : Type) where
  arrows : List (α × α)
  deriving Repr

namespace Digraph

variable {α : Type} [DecidableEq α]

/-- The targets of the arrows that leave a node, in order. -/
def successors (g : Digraph α) (a : α) : List α :=
  (g.arrows.filter (·.1 = a)).map (·.2)

/-- The relation that the arrows make. -/
def Adj (g : Digraph α) (a b : α) : Prop :=
  (a, b) ∈ g.arrows

@[simp]
theorem mem_successors {g : Digraph α} {a b : α} : b ∈ g.successors a ↔ g.Adj a b := by
  simp [successors, Adj]

/-- How many arrows leave nodes outside a list. -/
def openArrows (g : Digraph α) (seen : List α) : Nat :=
  g.arrows.countP (·.1 ∉ seen)

/-- Seeing one more node closes the arrows that leave it. -/
theorem openArrows_append {g : Digraph α} {seen : List α} {a : α} (h : a ∉ seen) :
    g.openArrows (seen ++ [a]) + (g.successors a).length = g.openArrows seen := by
  simp only [openArrows, successors, List.length_map]
  rw [← List.countP_eq_length_filter]
  induction g.arrows with
  | nil => rfl
  | cons x xs ih =>
    simp only [List.countP_cons, List.mem_append, List.mem_singleton, decide_not]
    simp only [decide_not, List.mem_append, List.mem_singleton] at ih
    by_cases hx : x.1 = a <;> by_cases hs : x.1 ∈ seen <;> simp_all <;> omega

/-- Breadth-first search: the nodes seen so far, followed by those that can be reached from the
queue without them, in the order of discovery. -/
def closure (g : Digraph α) (seen : List α) : List α → List α
  | [] => seen
  | a :: queue =>
    if _h : a ∈ seen then g.closure seen queue
    else g.closure (seen ++ [a]) (queue ++ g.successors a)
termination_by queue => g.openArrows seen + queue.length
decreasing_by
  · simp
  · have := openArrows_append (g := g) _h
    simp only [List.length_append, List.length_cons]
    omega

/-- Depth-first search. The path leads from the start to the current node, last node first and each
with the successors still to try; the finished nodes lead into no cycle. The search ends with the
first cycle it meets, or with all nodes finished once the path is used up. -/
def explore (g : Digraph α) (path : List (α × List α)) (finished : List α) :
    Except (List α) (List α) :=
  match path with
  | [] => .ok finished
  | (a, []) :: rest => g.explore rest (finished ++ [a])
  | (a, b :: bs) :: rest =>
    if b ∈ a :: rest.map (·.1) then .error ((a :: rest.map (·.1)).reverse.dropWhile (· ≠ b))
    else if b ∈ finished then g.explore ((a, bs) :: rest) finished
    else g.explore ((b, g.successors b) :: (a, bs) :: rest) finished
termination_by
  2 * g.openArrows (finished ++ path.map (·.1)) + 2 * (path.map (·.2.length)).foldr (· + ·) 0 +
    path.length
decreasing_by
  · simp only [List.map_cons, List.foldr_cons, List.length_cons, List.length_nil]
    have : g.openArrows (finished ++ [a] ++ rest.map (·.1))
        = g.openArrows (finished ++ a :: rest.map (·.1)) := by simp
    omega
  · simp only [List.map_cons, List.foldr_cons, List.length_cons]
    omega
  · rename_i hpath hfin
    have hnew : b ∉ finished ++ (a :: rest.map (·.1)) := by
      simp only [List.mem_append, not_or]
      exact ⟨hfin, hpath⟩
    have := openArrows_append (g := g) hnew
    have hperm : g.openArrows (finished ++ (a :: rest.map (·.1)) ++ [b])
        = g.openArrows (finished ++ b :: a :: rest.map (·.1)) := by
      simp only [openArrows]
      congr 1
      funext x
      simp only [List.mem_append, List.mem_cons, List.not_mem_nil, or_false]
      congr 1
      grind
    simp only [List.map_cons, List.foldr_cons, List.length_cons]
    omega

/-- The first cycle that depth-first search meets when it starts at the given nodes in turn: a path
of successive nodes whose last one leads back to the first. -/
def findCycle (g : Digraph α) (starts : List α) : Option (List α) :=
  let outcome := starts.foldlM (fun finished start =>
    if start ∈ finished then .ok finished
    else g.explore [(start, g.successors start)] finished) []
  match outcome with
  | .ok _ => none
  | .error cycle => some cycle

end Digraph

end Lineage
