import Lineage.Toml.Moment
import Lineage.Toml.Table
import Lineage.Toml.Text

/-!
# Values in TOML

Texts, words, lists and tables within one value. A word is a truth value, a number, or a date with
or without a time. Lists may go over several lines and hold comments; tables may not.
-/

namespace Lineage

namespace Toml

/-- How deep lists and tables may be nested. -/
def depthLimit : Nat := 79

def isWordChar (c : Char) : Bool :=
  isBareChar c || c = '+' || c = '.' || c = ':'

/-- A date or time as a value. -/
def ofMoment (text : List Char) : ConfigTree :=
  .table [("$__toml_private_datetime", .string (String.ofList text))]

def wordValue? (word : List Char) : Option ConfigTree :=
  if word = "true".toList then some (.boolean true)
  else if word = "false".toList then some (.boolean false)
  else
    match integer? word with
    | some n => some (.integer n)
    | none =>
      if isDecimal word then some (.decimal (String.ofList word))
      else (moment? word).map ofMoment

/-- Reads a word. A date and a time of day may stand apart. -/
def readWord (cs : List Char) : Option (ConfigTree × List Char) :=
  let word := cs.takeWhile isWordChar
  let rest := cs.dropWhile isWordChar
  let apart :=
    match date? word, rest with
    | some (date, []), ' ' :: after =>
      (clock? (after.takeWhile isWordChar)).map fun time =>
        (ofMoment (date ++ 'T' :: time), after.dropWhile isWordChar)
    | _, _ => none
  match apart with
  | some read => some read
  | none => (wordValue? word).map fun value => (value, rest)

/-- Skips white space, line ends and comments. -/
def skipLayout (cs : List Char) : List Char :=
  match cs with
  | [] => []
  | '\r' :: '\n' :: rest => skipLayout rest
  | '#' :: rest =>
    have := (List.dropWhile_sublist (!isControl ·) (l := rest)).length_le
    skipLayout (rest.dropWhile (!isControl ·))
  | c :: rest => if isSpace c || c = '\n' then skipLayout rest else c :: rest
termination_by cs.length
decreasing_by all_goals simp_all only [List.length_cons]; omega

/-- Reads a list after its opening bracket. -/
def readItems (read : List Char → Option (ConfigTree × List Char)) (cs : List Char) :
    Option (List ConfigTree × List Char) :=
  match skipLayout cs with
  | ']' :: rest => some ([], rest)
  | start => do
    let (item, rest) ← read start
    match skipLayout rest with
    | ']' :: rest => return ([item], rest)
    | ',' :: rest =>
      if rest.length < cs.length then
        let (items, rest) ← readItems read rest
        return (item :: items, rest)
      else none
    | _ => none
termination_by cs.length

/-- Reads keys and the value that is set under them. -/
def readPair (read : List Char → Option (ConfigTree × List Char)) (cs : List Char) :
    Option ((List String × ConfigTree) × List Char) := do
  let (path, rest) ← readPath cs
  match rest with
  | '=' :: rest =>
    let (value, rest) ← read (skipSpaces rest)
    return ((path, value), rest)
  | _ => none

/-- Reads the pairs of a table within a value, which has at least one. -/
def readPairs (read : List Char → Option (ConfigTree × List Char)) (cs : List Char) :
    Option (List (List String × ConfigTree) × List Char) := do
  let (first, rest) ← readPair read cs
  match skipSpaces rest with
  | '\x7d' :: rest => return ([first], rest)
  | ',' :: rest =>
    if rest.length < cs.length then
      let (pairs, rest) ← readPairs read rest
      return (first :: pairs, rest)
    else none
  | _ => none
termination_by cs.length

/-- Reads a table within a value, after its opening brace. -/
def readInline (read : List Char → Option (ConfigTree × List Char)) (cs : List Char) :
    Option (ConfigTree × List Char) :=
  match skipSpaces cs with
  | '\x7d' :: rest => some (.table [], rest)
  | start => do
    let (pairs, rest) ← readPairs read start
    return (← Slot.ofPairs pairs, rest)

/-- Reads a value in which lists and tables are nested to a depth. -/
def readValue (depth : Nat) (cs : List Char) : Option (ConfigTree × List Char) :=
  match depth, cs with
  | depth + 1, '[' :: rest => do
    let (items, rest) ← readItems (readValue depth) rest
    return (.list items, rest)
  | depth + 1, '\x7b' :: rest => readInline (readValue depth) rest
  | _, '"' :: _ | _, '\'' :: _ => do
    let (text, rest) ← readText cs
    return (.string (String.ofList text), rest)
  | _, cs => readWord cs
termination_by structural depth

end Toml

end Lineage
