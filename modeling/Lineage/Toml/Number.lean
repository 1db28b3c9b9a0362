import Lineage.Text.Hex
import Lineage.Text.Split

/-!
# Numbers in TOML

Integers to four bases and decimal fractions, given as whole words. Underscores may stand between
digits. Integers have 64 bits, and a fraction must not be too large for a double.
-/

namespace Lineage

namespace Toml

/-- The digits of a word after its first digit, if underscores stand only between digits. -/
def laterDigits? (isDigit : Char → Bool) : List Char → Option (List Char)
  | [] => some []
  | '_' :: c :: rest => if isDigit c then (laterDigits? isDigit rest).map (c :: ·) else none
  | c :: rest => if isDigit c then (laterDigits? isDigit rest).map (c :: ·) else none

/-- The digits of a word, which has at least one. -/
def digits? (isDigit : Char → Bool) : List Char → Option (List Char)
  | [] => none
  | c :: rest => if isDigit c then (laterDigits? isDigit rest).map (c :: ·) else none

/-- Whether a character is a digit to a base of at most ten. -/
def isDigitBelow (base : Nat) (c : Char) : Bool :=
  '0' ≤ c && c.toNat < '0'.toNat + base

def isHexDigit (c : Char) : Bool :=
  (hexDigit? c).isSome

/-- The value of digits to a base. -/
def valueOf (base : Nat) (digits : List Char) : Nat :=
  digits.foldl (fun n c => n * base + (hexDigit? c).getD 0) 0

/-- The digits of a natural number to base ten, which has no leading zeros. -/
def plainDigits? (cs : List Char) : Option (List Char) :=
  match digits? Char.isDigit cs with
  | some ('0' :: _ :: _) => none
  | digits => digits

/-- An integer, if it fits into 64 bits. -/
def bounded? (negative : Bool) (magnitude : Nat) : Option Int :=
  if negative then
    if magnitude ≤ Nat.pow 2 63 then some (-magnitude) else none
  else if magnitude < Nat.pow 2 63 then some magnitude
  else none

def integer? (cs : List Char) : Option Int :=
  match cs with
  | '0' :: 'x' :: rest => (digits? isHexDigit rest).bind fun ds => bounded? false (valueOf 16 ds)
  | '0' :: 'o' :: rest =>
    (digits? (isDigitBelow 8) rest).bind fun ds => bounded? false (valueOf 8 ds)
  | '0' :: 'b' :: rest =>
    (digits? (isDigitBelow 2) rest).bind fun ds => bounded? false (valueOf 2 ds)
  | cs =>
    let (negative, cs) := splitSign cs
    (plainDigits? cs).bind fun ds => bounded? negative (valueOf 10 ds)

/-- Digits, a power of ten, and whether there is anything after the point or an exponent. -/
structure Fraction where
  digits : List Char
  power : Int
  isWhole : Bool

/-- The decimal fraction of a word without its sign. -/
def fraction? (cs : List Char) : Option Fraction := do
  let (mantissa, exponent) := splitAtFirst (fun c => c = 'e' || c = 'E') cs
  let (whole, decimals) := splitAtFirst (· = '.') mantissa
  let before ← plainDigits? whole
  let after ← decimals.elim (some []) (digits? Char.isDigit)
  let power : Int ← exponent.elim (some 0) fun cs => do
    let (negative, cs) := splitSign cs
    let n := valueOf 10 (← digits? Char.isDigit cs)
    return if negative then -n else n
  return ⟨before ++ after, power - after.length, decimals.isNone && exponent.isNone⟩

/-- Whether a fraction is too large for a double. More digits than any double has settle it. -/
def Fraction.isHuge (f : Fraction) : Bool :=
  let value := valueOf 10 f.digits
  if value = 0 then false
  else if f.power ≥ 0 then
    f.power > 400 || value * Nat.pow 10 f.power.toNat ≥ Nat.pow 2 1024 - Nat.pow 2 970
  else if f.digits.length ≤ (-f.power).toNat then false
  else value ≥ (Nat.pow 2 1024 - Nat.pow 2 970) * Nat.pow 10 (-f.power).toNat

/-- Whether a word is a number that is no integer. -/
def isDecimal (cs : List Char) : Bool :=
  let (negative, cs) := splitSign cs
  if cs = "inf".toList || cs = "nan".toList then true
  else
    match fraction? cs with
    | none => false
    | some f => !f.isWhole && (negative || !f.isHuge)

end Toml

end Lineage
