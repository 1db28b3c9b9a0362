import Lineage.ConfigTree
import Lineage.Text.Blank
import Lineage.Text.Bytes
import Lineage.Text.Lower
import Lineage.Text.Split
import Lineage.Toml.Number
import Lineage.Toml.Text

/-!
# Settings in the environment

Variables whose names start in a certain way set values. The rest of such a name gives the keys, and
the text of the variable is read as a value in a small notation: a truth value, a number, a text in
quotes, a character, a list, a table, or else just a text.
-/

namespace Lineage

/-- The variables of the environment with their texts, in the order in which they were set. -/
abbrev Environment := List (String × String)

namespace Environment

/-! ## Names -/

/-- How the names start, in any case. -/
def nameStart : List Char := "CLASSGRAPH_".toList

/-- Two underscores stand for a point. -/
def pointUnderscores : List Char → List Char
  | '_' :: '_' :: rest => '.' :: pointUnderscores rest
  | c :: rest => c :: pointUnderscores rest
  | [] => []

/-- The keys that a variable of a given name sets. -/
def keys? (name : String) : Option (List String) :=
  let cs := trimChars name.toList
  if (cs.take nameStart.length).map Char.toUpper = nameStart then
    let rest := trimChars (pointUnderscores (lower (cs.drop nameStart.length)))
    let keys := (splitChars '.' rest).map String.ofList
    if keys.contains "" then none else some keys
  else none

/-! ## Values -/

/-- White space between the parts of a value. -/
def isSpace (c : Char) : Bool :=
  c = ' ' || c = '\t' || c = '\n' || c = '\r' || c = '\x0c'

/-- A text without the white space at its start. -/
def skipSpaces (cs : List Char) : List Char :=
  cs.dropWhile isSpace

def isWordChar (c : Char) : Bool :=
  !([',', '\x7b', '\x7d', '[', ']'].contains c)

/-- The integer of a word, if it fits into 64 bits with or without a sign. -/
def integer? (word : List Char) : Option Int :=
  let (negative, digits) := splitSign word
  let value := Toml.valueOf 10 digits
  if digits.isEmpty || !digits.all Char.isDigit then none
  else if negative then if value ≤ Nat.pow 2 63 then some (-value) else none
  else if value < Nat.pow 2 64 then some value
  else none

/-- Whether a word is a number with a point. -/
def isDecimal (word : List Char) : Bool :=
  let isDigits (cs : List Char) : Bool := !cs.isEmpty && cs.all Char.isDigit
  let (mantissa, exponent) :=
    splitAtFirst (fun c => c = 'e' || c = 'E') (splitSign word).2
  match splitAtFirst (· = '.') mantissa with
  | (whole, some decimals) =>
    isDigits (whole ++ decimals) && exponent.all fun cs => isDigits (splitSign cs).2
  | (_, none) => false

def wordValue (word : List Char) : ConfigTree :=
  if isDecimal word then .decimal (String.ofList word)
  else
    match integer? word with
    | some n => .integer n
    | none => .string (String.ofList word)

/-- Reads a list after its opening bracket. -/
def readItems (read : List Char → Option (ConfigTree × List Char)) (cs : List Char) :
    Option (List ConfigTree × List Char) :=
  match cs with
  | ']' :: rest => some ([], rest)
  | cs => do
    let (item, rest) ← read cs
    match rest with
    | ']' :: rest => return ([item], rest)
    | ',' :: rest =>
      if rest.length < cs.length then
        let (items, rest) ← readItems read rest
        return (item :: items, rest)
      else none
    | _ => none
termination_by cs.length

/-- Reads a text after its opening quote. Of what comes before the first escape only so many bytes
count as there are characters. -/
def readQuoted (cs : List Char) : Option (List Char × List Char) := do
  let plain := cs.takeWhile fun c => c ≠ '"' && c ≠ '\\'
  let (text, rest) ← Toml.readBasic cs
  match cs.drop plain.length with
  | '\\' :: _ => return (charsBefore plain.length plain ++ text.drop plain.length, rest)
  | _ => return (text, rest)

/-- Reads a key: a text in quotes or a bare word, with white space around it. -/
def readKey (cs : List Char) : Option (String × List Char) := do
  let (key, rest) ←
    match skipSpaces cs with
    | '"' :: rest => readQuoted rest
    | cs =>
      match cs.takeWhile Toml.isBareChar with
      | [] => none
      | key => some (key, cs.dropWhile Toml.isBareChar)
  return (String.ofList key, skipSpaces rest)

/-- Reads a table after its opening brace. -/
def readEntries (read : List Char → Option (ConfigTree × List Char)) (cs : List Char) :
    Option (List (String × ConfigTree) × List Char) :=
  match cs with
  | '\x7d' :: rest => some ([], rest)
  | cs => do
    let (key, rest) ← readKey cs
    match rest with
    | '=' :: rest => do
      let (value, rest) ← read rest
      match rest with
      | '\x7d' :: rest => return ([(key, value)], rest)
      | ',' :: rest =>
        if rest.length < cs.length then
          let (entries, rest) ← readEntries read rest
          return ((key, value) :: entries, rest)
        else none
      | _ => none
    | _ => none
termination_by cs.length

/-- A table of some entries. Of two under the same key the later one counts. -/
def tableOf (entries : List (String × ConfigTree)) : ConfigTree :=
  .table (entries.foldl (fun table (key, value) => putEntry key value table) [])

/-- Reads a value in which lists and tables are nested to a depth, with white space around it. A
word may be empty. -/
def readValue (depth : Nat) (cs : List Char) : Option (ConfigTree × List Char) := do
  let (value, rest) ←
    match depth, skipSpaces cs with
    | _, 't' :: 'r' :: 'u' :: 'e' :: rest => some (.boolean true, rest)
    | _, 'f' :: 'a' :: 'l' :: 's' :: 'e' :: rest => some (.boolean false, rest)
    | depth + 1, '\x7b' :: rest => do
      let (entries, rest) ← readEntries (readValue depth) rest
      return (tableOf entries, rest)
    | depth + 1, '[' :: rest => do
      let (items, rest) ← readItems (readValue depth) rest
      return (ConfigTree.list items, rest)
    | _, '"' :: rest => do
      let (text, rest) ← readQuoted rest
      return (ConfigTree.string (String.ofList text), rest)
    | _, '\'' :: c :: '\'' :: rest => some (.character c, rest)
    | _, '\'' :: _ => none
    | _, cs => some (wordValue (trimChars (cs.takeWhile isWordChar)), cs.dropWhile isWordChar)
  return (value, skipSpaces rest)
termination_by structural depth

/-- The value of a variable. A text that is no value stands for itself. -/
def value (text : String) : ConfigTree :=
  let cs := text.toList
  match readValue cs.length cs with
  | some (value, []) => value
  | _ => .string text

/-- What the variables set, the later ones laid over the earlier ones. -/
def toTree (environment : Environment) : ConfigTree :=
  environment.foldl (fun tree (name, text) =>
    match keys? name with
    | some keys => tree.merge (.nest keys (value text))
    | none => tree) (.table [])

end Environment

end Lineage
