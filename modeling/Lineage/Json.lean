/-!
# JSON values

The values of JSON. The members of an object keep their order and may repeat, as in the text.
-/

namespace Lineage

/-- A JSON value. -/
inductive Json
  | null
  | boolean (value : Bool)
  | integer (value : Int)
  /-- A number that is no integer of 64 bits, in decimal. -/
  | real (literal : String)
  | string (value : String)
  | array (items : List Json)
  | object (members : List (String × Json))
  deriving Repr, Inhabited, BEq

namespace Json

def strings (texts : List String) : Json :=
  array (texts.map string)

def optional (text : Option String) : Json :=
  text.elim null string

def natural (n : Nat) : Json :=
  integer n

def string? : Json → Option String
  | string value => some value
  | _ => none

/-- The word that names one of several choices: a string, or an object with the word and nothing. -/
def word? : Json → Option String
  | string word => some word
  | object [(word, null)] => some word
  | _ => none

def boolean? : Json → Option Bool
  | boolean value => some value
  | _ => none

def strings? : Json → Option (List String)
  | array items => items.mapM string?
  | _ => none

/-- The text of a string, or nothing for `null`. -/
def optional? : Json → Option (Option String)
  | null => some none
  | string value => some (some value)
  | _ => none

@[simp]
theorem strings?_strings (texts : List String) : (strings texts).strings? = some texts := by
  simp only [strings, strings?, List.mapM_map]
  induction texts with
  | nil => rfl
  | cons t ts ih => simp_all [List.mapM_cons, string?]

@[simp]
theorem optional?_optional (text : Option String) : (optional text).optional? = some text := by
  cases text <;> rfl

end Json

end Lineage
