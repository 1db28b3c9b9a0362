import Lineage.ConfigTree

/-!
# Tables in TOML

A table is put together from pairs and headers that come in any order, and no part of it may be
defined twice. What is there already remembers how it came to be, because that decides who may add
to it: a pair with several keys must not reach into a table that a header defines, and a header may
define a table that was so far only passed on the way to another one. Two keys are reserved within
tables: one for the value that a table stands for, and one for a mark that no file can set.
-/

namespace Lineage

namespace Toml

/-- How a table came to be. -/
inductive Origin
  /-- By a header of its own. -/
  | defined
  /-- On the way to a table of another header. -/
  | passed
  /-- By a pair with several keys. -/
  | dotted
  deriving DecidableEq, Repr

/-- What stands under a key. -/
inductive Slot
  | value (tree : ConfigTree)
  | table (origin : Origin) (entries : List (String × Slot))
  /-- Tables of one header that comes several times, the last one first. -/
  | series (tables : List (List (String × Slot)))

/-- The reserved key of the value that a table stands for. -/
def valueKey : String := "___figment_value_value"

/-- The reserved key of the mark of a table. -/
def markKey : String := "___figment_value_id"

/-- The value of a table within a document: the one under the reserved key, or else the table. There
is none if the mark is set. -/
def closeTable (entries : List (String × ConfigTree)) : Option ConfigTree :=
  if (entries.lookup markKey).isSome then none
  else some ((entries.lookup valueKey).getD (.table entries))

namespace Slot

mutual

/-- The finished value. -/
def toTree? : Slot → Option ConfigTree
  | value tree => some tree
  | table _ entries => do closeTable (← entriesToTree? entries)
  | series tables => do return .list (← seriesToTree? tables).reverse

/-- The finished entries of a table. -/
def entriesToTree? : List (String × Slot) → Option (List (String × ConfigTree))
  | [] => some []
  | (key, slot) :: rest => do return (key, ← slot.toTree?) :: (← entriesToTree? rest)

/-- The finished tables of a series. -/
def seriesToTree? : List (List (String × Slot)) → Option (List ConfigTree)
  | [] => some []
  | entries :: rest => do
    return (← closeTable (← entriesToTree? entries)) :: (← seriesToTree? rest)

end

/-- A change of the entries of a table, which may depend on how the table came to be. -/
abbrev Change := Origin → List (String × Slot) → Option (List (String × Slot))

/-- Makes a change in the table that keys lead to. Tables on the way that are missing are made; of a
series the last table is meant. A pair does not reach into a table with a header. -/
def descend (byPair : Bool) (change : Change) : List String → Change
  | [], origin, entries => change origin entries
  | key :: path, _, entries =>
    match entries.lookup key with
    | none => do
      let origin := if byPair then .dotted else .passed
      let inner ← descend byPair change path origin []
      return putEntry key (.table origin inner) entries
    | some (.table origin inner) =>
      if byPair && origin = .defined then none
      else do
        let inner ← descend byPair change path origin inner
        return putEntry key (.table origin inner) entries
    | some (.series (last :: before)) => do
      let last ← descend byPair change path .defined last
      return putEntry key (.series (last :: before)) entries
    | some (.series []) | some (.value _) => none

/-- Sets a value under a new key. The last of several keys must stand in a table that was made by
such a pair. -/
def setValue (several : Bool) (key : String) (tree : ConfigTree) : Change :=
  fun origin entries =>
    if several && origin ≠ .dotted || (entries.lookup key).isSome then none
    else some (putEntry key (.value tree) entries)

/-- Sets a value under the keys of a pair. -/
def setPair (path : List String) (tree : ConfigTree) : Change :=
  match path.getLast? with
  | none => fun _ _ => none
  | some key => descend true (setValue (path.length > 1) key tree) path.dropLast

/-- Defines a table, which may have been passed before. -/
def defineTable (key : String) : Change :=
  fun _ entries =>
    match entries.lookup key with
    | none => some (putEntry key (.table .defined []) entries)
    | some (.table .passed inner) => some (putEntry key (.table .defined inner) entries)
    | _ => none

/-- Starts the next table of a series. -/
def extendSeries (key : String) : Change :=
  fun _ entries =>
    match entries.lookup key with
    | none => some (putEntry key (.series [[]]) entries)
    | some (.series tables) => some (putEntry key (.series ([] :: tables)) entries)
    | _ => none

/-- The value of a table of some pairs. -/
def ofPairs (pairs : List (List String × ConfigTree)) : Option ConfigTree := do
  let entries ← pairs.foldlM (fun entries (path, tree) => setPair path tree .defined entries) []
  closeTable (← entriesToTree? entries)

end Slot

end Toml

end Lineage
