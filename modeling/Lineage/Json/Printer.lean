import Lineage.Json
import Lineage.Text.Hex

/-!
# Writing JSON

`compact` writes a value on one line without blanks, `pretty` puts every item and member on a line
of its own, indented by two blanks for each array and object around it.
-/

namespace Lineage

namespace Json

/-- How a character is written in a string. -/
def escapeChar (c : Char) : List Char :=
  match c with
  | '"' => ['\\', '"']
  | '\\' => ['\\', '\\']
  | '\x08' => ['\\', 'b']
  | '\x0c' => ['\\', 'f']
  | '\n' => ['\\', 'n']
  | '\r' => ['\\', 'r']
  | '\t' => ['\\', 't']
  | c =>
    if c.toNat < 0x20 then '\\' :: 'u' :: hexDigits 'a' c.toNat else [c]

def quote (s : String) : String :=
  String.ofList ('"' :: s.toList.flatMap escapeChar ++ ['"'])

mutual

/-- A value on one line. -/
def compact : Json → String
  | null => "null"
  | boolean value => toString value
  | integer value => toString value
  | real literal => literal
  | string value => quote value
  | array items => "[" ++ ",".intercalate (compactItems items) ++ "]"
  | object members => "\x7b" ++ ",".intercalate (compactMembers members) ++ "\x7d"

/-- The items of an array, each on one line. -/
def compactItems : List Json → List String
  | [] => []
  | item :: items => compact item :: compactItems items

/-- The members of an object, each on one line. -/
def compactMembers : List (String × Json) → List String
  | [] => []
  | (key, value) :: members => (quote key ++ ":" ++ compact value) :: compactMembers members

end

/-- Lines between brackets, indented one step more than the brackets. -/
def bracket (indent : String) (start stop : String) (lines : List String) : String :=
  if lines.isEmpty then start ++ stop
  else
    start ++ "\n" ++ ",\n".intercalate (lines.map fun line => indent ++ "  " ++ line) ++ "\n"
      ++ indent ++ stop

mutual

/-- A value on several lines; `indent` stands before all lines but the first. -/
def prettyAt (indent : String) : Json → String
  | array items => bracket indent "[" "]" (prettyItems (indent ++ "  ") items)
  | object members => bracket indent "\x7b" "\x7d" (prettyMembers (indent ++ "  ") members)
  | value => compact value

def prettyItems (indent : String) : List Json → List String
  | [] => []
  | item :: items => prettyAt indent item :: prettyItems indent items

def prettyMembers (indent : String) : List (String × Json) → List String
  | [] => []
  | (key, value) :: members =>
    (quote key ++ ": " ++ prettyAt indent value) :: prettyMembers indent members

end

/-- A value on several lines. -/
def pretty (value : Json) : String :=
  prettyAt "" value

end Json

end Lineage
