import Lineage.Toml.Document

/-!
# Writing TOML

A tree is laid out as statements: the plain values of a table first, then its tables, each under a
header of its own. Lists of two or more items get a line for each item.
-/

namespace Lineage

namespace Toml

mutual

/-- A value on one line. -/
def inlineText : ConfigTree → List Char
  | .boolean value => (toString value).toList
  | .integer value => (toString value).toList
  | .decimal literal => literal.toList
  | .string value => quoted value.toList
  | .character value => quoted [value]
  | .list items => '[' :: inlineItems items ++ [']']
  | .table [] => ['\x7b', '\x7d']
  | .table entries => "\x7b ".toList ++ inlineEntries entries ++ " \x7d".toList

def inlineItems : List ConfigTree → List Char
  | [] => []
  | [item] => inlineText item
  | item :: items => inlineText item ++ [',', ' '] ++ inlineItems items

def inlineEntries : List (String × ConfigTree) → List Char
  | [] => []
  | [(key, value)] => quotedKey key.toList ++ " = ".toList ++ inlineText value
  | (key, value) :: entries =>
    quotedKey key.toList ++ " = ".toList ++ inlineText value ++ [',', ' '] ++ inlineEntries entries

end

/-- An item on a line of its own. -/
def itemLine (item : ConfigTree) : List Char :=
  "    ".toList ++ inlineText item ++ [',', '\n']

/-- The value of a pair. -/
def valueText : ConfigTree → List Char
  | .list (first :: second :: rest) =>
    ['[', '\n'] ++ (first :: second :: rest).flatMap itemLine ++ [']']
  | value => inlineText value

/-- Keys with points between them. -/
def pathText (path : List String) : List Char :=
  ['.'].intercalate (path.map fun key => quotedKey key.toList)

/-- A statement on lines of its own. -/
def Statement.text : Statement → List Char
  | .header path => '[' :: pathText path ++ [']', '\n']
  | .element path => '[' :: '[' :: pathText path ++ [']', ']', '\n']
  | .pair path value => pathText path ++ " = ".toList ++ valueText value ++ ['\n']

/-- Whether a statement starts a table. -/
def Statement.isHeader : Statement → Bool
  | .pair .. => false
  | _ => true

/-- Statements, with an empty line before each header that is not the first statement. -/
def documentText : List Statement → List Char
  | [] => []
  | first :: rest =>
    first.text ++ rest.flatMap fun s => (if s.isHeader then ['\n'] else []) ++ s.text

/-- The pairs of a table. -/
def pairStatements (entries : List (String × ConfigTree)) : List Statement :=
  entries.filterMap fun
    | (_, .table _) => none
    | (key, value) => some (.pair [key] value)

mutual

/-- The tables within a table, each with all its statements. -/
def tableStatements (path : List String) : List (String × ConfigTree) → List Statement
  | [] => []
  | (key, value) :: rest => innerStatements (path ++ [key]) value ++ tableStatements path rest

/-- The statements of a value that is a table. -/
def innerStatements (path : List String) : ConfigTree → List Statement
  | .table entries =>
    .header path :: (pairStatements entries ++ tableStatements path entries)
  | _ => []

end

def statements : ConfigTree → List Statement
  | .table entries => pairStatements entries ++ tableStatements [] entries
  | _ => []

def print (tree : ConfigTree) : String :=
  String.ofList (documentText (statements tree))

end Toml

end Lineage
