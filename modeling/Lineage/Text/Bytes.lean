/-!
# Places counted in bytes

A place in a text may be counted in the bytes that the characters before it take in UTF-8.
-/

namespace Lineage

/-- How many bytes characters take. -/
def byteLength : List Char → Nat
  | [] => 0
  | c :: cs => c.utf8Size + byteLength cs

/-- The characters that begin at a byte or behind it. -/
def charsFrom (start : Nat) : List Char → List Char
  | [] => []
  | c :: cs => if start = 0 then c :: cs else charsFrom (start - c.utf8Size) cs

/-- The characters that begin before a byte. -/
def charsBefore (stop : Nat) : List Char → List Char
  | [] => []
  | c :: cs => if stop = 0 then [] else c :: charsBefore (stop - c.utf8Size) cs

/-- The characters that begin from one byte on and before another. -/
def charsBetween (start stop : Nat) (cs : List Char) : List Char :=
  charsBefore (stop - start) (charsFrom start cs)

end Lineage
