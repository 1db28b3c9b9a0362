import Lineage.Dictionary

/-!
# Configuration trees

Settings before they have a meaning: plain values, lists, and tables of named entries. A file, the
environment and the defaults are each such a tree, and `merge` lays one over another. `visit` reads
a tree as a record, and tells under which keys it met the first fault.
-/

namespace Lineage

/-- A tree of settings. -/
inductive ConfigTree
  | boolean (value : Bool)
  | integer (value : Int)
  /-- A number that is no integer, as it is written. -/
  | decimal (literal : String)
  | string (value : String)
  /-- A text of one character that is written as a character. -/
  | character (value : Char)
  | list (items : List ConfigTree)
  /-- Entries under names of which none comes twice. -/
  | table (entries : List (String × ConfigTree))
  deriving Repr, Inhabited, BEq

/-- Entries with a value under a key, in the place of the one that is there. -/
def putEntry {α : Type} (key : String) (value : α) : List (String × α) → List (String × α)
  | [] => [(key, value)]
  | (other, old) :: rest =>
    if key = other then (key, value) :: rest else (other, old) :: putEntry key value rest

namespace ConfigTree

def strings (texts : List String) : ConfigTree :=
  list (texts.map string)

mutual

/-- Lays a tree over another one. Tables are laid over each other entry by entry; any other value
takes the place of what is below. -/
def merge (below : ConfigTree) : ConfigTree → ConfigTree
  | table entries =>
    match below with
    | table others => table (mergeEntries others entries)
    | _ => table entries
  | value => value

/-- Lays entries over others, one after the other. -/
def mergeEntries (below : List (String × ConfigTree)) :
    List (String × ConfigTree) → List (String × ConfigTree)
  | [] => below
  | (key, value) :: rest =>
    mergeEntries
      (putEntry key (match below.lookup key with | some old => merge old value | none => value)
        below)
      rest

end

/-- A tree with tables around it, the outermost under the first key. -/
def nest (keys : List String) (value : ConfigTree) : ConfigTree :=
  keys.foldr (fun key inner => table [(key, inner)]) value

/-- What is wrong with a tree that should be a value of some kind. -/
inductive Fault
  /-- It is of another kind. -/
  | mistyped
  /-- It is an integer outside the range. -/
  | outOfRange
  /-- It is none of the words that are allowed. -/
  | unknownWord
  deriving DecidableEq, Repr

/-- A fault with the keys that lead to it. -/
structure Misfit where
  fault : Fault
  path : List String := []
  deriving DecidableEq, Repr

/-- A misfit seen from the table or list around it. -/
def Misfit.under (key : String) (m : Misfit) : Misfit :=
  { m with path := key :: m.path }

def asBool : ConfigTree → Except Misfit Bool
  | boolean value => .ok value
  | _ => .error ⟨.mistyped, []⟩

def asText : ConfigTree → Except Misfit String
  | string value => .ok value
  | character value => .ok (String.singleton value)
  | _ => .error ⟨.mistyped, []⟩

def asWord32 : ConfigTree → Except Misfit UInt32
  | integer value =>
    if 0 ≤ value ∧ value.toNat < UInt32.size then .ok (UInt32.ofNat value.toNat)
    else .error ⟨.outOfRange, []⟩
  | _ => .error ⟨.mistyped, []⟩

/-- Reads items in order, each under its number. -/
def itemsFrom {α : Type} (decode : ConfigTree → Except Misfit α) (index : Nat) :
    List ConfigTree → Except Misfit (List α)
  | [] => .ok []
  | item :: items => do
    let first ← (decode item).mapError (·.under (toString index))
    return first :: (← itemsFrom decode (index + 1) items)

def asTexts : ConfigTree → Except Misfit (List String)
  | list items => itemsFrom asText 0 items
  | _ => .error ⟨.mistyped, []⟩

/-- Reads named values one after the other, each together with the key to tell in a fault. -/
def visitEntries {σ : Type} (step : σ → String → ConfigTree → Except Misfit σ) (start : σ)
    (entries : List (String × String × ConfigTree)) : Except Misfit σ :=
  entries.foldlM (fun state (key, name, value) =>
    (step state name value).mapError (·.under key)) start

/-- Reads a record: the entries of a table in the order of their keys, or the items of a list as
the fields in order. -/
def visit {σ : Type} (fields : List String) (step : σ → String → ConfigTree → Except Misfit σ)
    (start : σ) : ConfigTree → Except Misfit σ
  | table entries =>
    visitEntries step start ((Dictionary.ofList entries).entries.map fun (key, value) =>
      (key, key, value))
  | list items =>
    visitEntries step start ((fields.zip items).zipIdx.map fun ((name, value), index) =>
      (toString index, name, value))
  | _ => .error ⟨.mistyped, []⟩

/-- A table of texts. -/
def asDictionary : ConfigTree → Except Misfit (Dictionary String)
  | table entries => (table entries).visit []
      (fun texts key value => return texts.insert key (← value.asText)) {}
  | _ => .error ⟨.mistyped, []⟩

end ConfigTree

end Lineage
