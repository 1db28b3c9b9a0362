/-!
# Splitting text

Cutting a text at the last occurrence of a character, at every occurrence, and at the first one, and
taking a sign off a word.
-/

namespace Lineage

/-- The parts before and after the last occurrence of a character. -/
def splitLastChars (sep : Char) : List Char → Option (List Char × List Char)
  | [] => none
  | c :: cs =>
    match splitLastChars sep cs with
    | some (before, after) => some (c :: before, after)
    | none => if c = sep then some ([], cs) else none

/-- The parts of a text before and after the last occurrence of a character. -/
def splitLast (sep : Char) (s : String) : Option (String × String) :=
  (splitLastChars sep s.toList).map fun (before, after) =>
    (String.ofList before, String.ofList after)

/-- The pieces of a list of characters between the occurrences of a separator. -/
def splitChars (sep : Char) : List Char → List (List Char)
  | [] => [[]]
  | c :: cs =>
    if c = sep then [] :: splitChars sep cs
    else
      match splitChars sep cs with
      | [] => [[c]]
      | piece :: pieces => (c :: piece) :: pieces

/-- The pieces of a text between the occurrences of a separator. -/
def splitAll (sep : Char) (s : String) : List String :=
  (splitChars sep s.toList).map String.ofList

/-- The parts of a list before and after the first element with a property. -/
def splitAtFirst {α : Type} (p : α → Bool) (xs : List α) : List α × Option (List α) :=
  match xs.dropWhile (!p ·) with
  | [] => (xs, none)
  | _ :: rest => (xs.takeWhile (!p ·), some rest)

/-- Whether a word has a minus sign, and the word without its sign. -/
def splitSign : List Char → Bool × List Char
  | '-' :: rest => (true, rest)
  | '+' :: rest => (false, rest)
  | cs => (false, cs)

end Lineage
