/-!
# Nesting of expressions

The depth of an expression is the number of levels around its innermost part: one for each
repetition, group and class, for a row of more than one part, for branches, and for an operation on
classes. Depths are counted here while the parts are read, from the depths of what is inside them.
-/

namespace Lineage

namespace Pattern

/-- Parts that stand in a row, as far as they are read. -/
structure Row where
  count : Nat := 0
  /-- The greatest depth of a part. -/
  deepest : Nat := 0
  /-- The depth of the last part, if it can be repeated. -/
  last : Option Nat := none
  deriving DecidableEq, Repr

namespace Row

/-- The depth of a row. One part alone makes no level. -/
def depth (r : Row) : Nat :=
  if r.count ≤ 1 then r.deepest else r.deepest + 1

def add (r : Row) (depth : Nat) : Row :=
  ⟨r.count + 1, max r.deepest depth, some depth⟩

/-- A row with one more part that cannot be repeated. -/
def addSwitches (r : Row) : Row :=
  { r with count := r.count + 1, last := none }

/-- A row whose last part is repeated. -/
def repeat? (r : Row) : Option Row := do
  let depth ← r.last
  return { r with deepest := max r.deepest (depth + 1), last := some (depth + 1) }

end Row

/-- What stands between two brackets, as far as it is read. -/
structure Layer where
  /-- The depth of what stands before the last mark between two rows, if there is such a mark. -/
  before : Option Nat := none
  /-- The row behind that mark. -/
  row : Row := {}
  deriving DecidableEq, Repr

namespace Layer

def depth (l : Layer) : Nat :=
  match l.before with
  | none => l.row.depth
  | some before => max before l.row.depth + 1

def add (l : Layer) (depth : Nat) : Layer :=
  { l with row := l.row.add depth }

/-- A layer behind a mark between branches. All of them stand side by side, on one level. -/
def branch (l : Layer) : Layer :=
  ⟨some (max (l.before.getD 0) l.row.depth), {}⟩

/-- A layer behind a mark of an operation, for which all that comes before is one side. -/
def operate (l : Layer) : Layer :=
  ⟨some l.depth, {}⟩

end Layer

/-- How deep the parts of an expression may be nested. -/
def maxDepth : Nat := 250

end Pattern

end Lineage
