import Lineage.Toml.Value

/-!
# TOML documents

A document is a row of statements: headers of tables, headers of tables in a series, and pairs of
keys and a value, which belong to the last header before them.
-/

namespace Lineage

namespace Toml

inductive Statement
  /-- The table under some keys follows. -/
  | header (path : List String)
  /-- One more table of the series under some keys follows. -/
  | element (path : List String)
  /-- A value is set. -/
  | pair (path : List String) (value : ConfigTree)

/-- Reads what may still stand on a line: white space and a comment. -/
def finishLine? (cs : List Char) : Option (List Char) :=
  let rest :=
    match skipSpaces cs with
    | '#' :: rest => rest.dropWhile (!isControl ·)
    | rest => rest
  if rest.isEmpty then some [] else lineEnd? rest

def readStatement (cs : List Char) : Option (Statement × List Char) :=
  match cs with
  | '[' :: '[' :: rest => do
    let (path, rest) ← readPath rest
    match rest with
    | ']' :: ']' :: rest => return (.element path, ← finishLine? rest)
    | _ => none
  | '[' :: rest => do
    let (path, rest) ← readPath rest
    match rest with
    | ']' :: rest => return (.header path, ← finishLine? rest)
    | _ => none
  | cs => do
    let ((path, value), rest) ← readPair (readValue depthLimit) cs
    return (.pair path value, ← finishLine? rest)

def readStatements (cs : List Char) : Option (List Statement) :=
  match skipLayout cs with
  | [] => some []
  | start => do
    let (statement, rest) ← readStatement start
    if rest.length < cs.length then
      let statements ← readStatements rest
      return statement :: statements
    else none
termination_by cs.length

/-- A document as far as it is read: its entries, and the keys of the table that pairs go to. -/
structure Progress where
  entries : List (String × Slot) := []
  here : List String := []

/-- Carries out a statement. -/
def Progress.step (p : Progress) (s : Statement) : Option Progress :=
  let within (path : List String) (change : Slot.Change) : Option (List (String × Slot)) :=
    Slot.descend false change path .defined p.entries
  match s with
  | .header path => do
    let entries ← within path.dropLast (Slot.defineTable (← path.getLast?))
    return ⟨entries, path⟩
  | .element path => do
    let entries ← within path.dropLast (Slot.extendSeries (← path.getLast?))
    return ⟨entries, path⟩
  | .pair path value => do
    let entries ← within p.here (Slot.setPair path value)
    return ⟨entries, p.here⟩

/-- The tree of a row of statements. -/
def ofStatements (statements : List Statement) : Option ConfigTree := do
  let done ← statements.foldlM Progress.step {}
  return .table (← Slot.entriesToTree? done.entries)

/-- A text without the mark of its byte order. -/
def dropOrderMark : List Char → List Char
  | '\uFEFF' :: rest => rest
  | cs => cs

def read (text : String) : Option ConfigTree := do
  let statements ← readStatements (dropOrderMark text.toList)
  ofStatements statements

end Toml

end Lineage
