/-!
# Method signatures

A method is told apart by its name and its parameter types. Signatures are ordered by name and then
by parameters, and a set of them is kept as a list in that order without repetitions.
-/

namespace Lineage

/-- The name of a method with the types of its parameters. -/
structure Signature where
  name : String
  params : List String := []
  deriving DecidableEq, Repr, Inhabited

namespace Signature

/-- The text of a signature, such as `area(int, String)`. -/
def text (s : Signature) : String :=
  s.name ++ "(" ++ ", ".intercalate s.params ++ ")"

/-- Whether one signature comes before another: by name, then by parameters. -/
def before (s t : Signature) : Bool :=
  s.name < t.name || (s.name == t.name && s.params < t.params)

/-- A sorted list with a signature put in its place, unless it is there already. -/
def insertSorted (s : Signature) : List Signature → List Signature
  | [] => [s]
  | t :: ts =>
    if s = t then t :: ts
    else if s.before t then s :: t :: ts
    else t :: insertSorted s ts

/-- The signatures of a list in order, each once. -/
def sorted (signatures : List Signature) : List Signature :=
  signatures.foldr insertSorted []

@[simp]
theorem mem_insertSorted {s t : Signature} {ts : List Signature} :
    s ∈ insertSorted t ts ↔ s = t ∨ s ∈ ts := by
  induction ts with
  | nil => simp [insertSorted]
  | cons u us ih =>
    rw [insertSorted]
    split
    · next h => simp [h]
    · split
      · simp
      · simp [ih, or_left_comm]

/-- Sorting neither loses a signature nor adds one. -/
@[simp]
theorem mem_sorted {s : Signature} {ts : List Signature} : s ∈ sorted ts ↔ s ∈ ts := by
  induction ts with
  | nil => simp [sorted]
  | cons t ts ih =>
    rw [sorted, List.foldr_cons, mem_insertSorted, ← sorted, ih, List.mem_cons]

end Signature

end Lineage
