import Lineage.Toml.Number

/-!
# Dates and times in TOML

A date, a time, or a date with a time and perhaps an offset from universal time. They are read as
words and kept as text in one form: the date and the time stand around a `T`, and a fraction of a
second has up to nine digits without zeros at its end.
-/

namespace Lineage

namespace Toml

def isLeapYear (year : Nat) : Bool :=
  year % 4 = 0 && (year % 100 ≠ 0 || year % 400 = 0)

def daysIn (year month : Nat) : Nat :=
  if month = 2 then if isLeapYear year then 29 else 28
  else if [4, 6, 9, 11].contains month then 30
  else 31

/-- The value of two digits that does not exceed a limit. -/
def pair? (a b : Char) (limit : Nat) : Option Nat := do
  guard (a.isDigit && b.isDigit)
  let value := valueOf 10 [a, b]
  guard (value ≤ limit)
  return value

/-- Reads a date at the start of a word: its text and what follows. -/
def date? : List Char → Option (List Char × List Char)
  | y :: y' :: y'' :: y''' :: '-' :: m :: m' :: '-' :: d :: d' :: rest => do
    guard ([y, y', y'', y'''].all Char.isDigit)
    let month ← pair? m m' 12
    let day ← pair? d d' (daysIn (valueOf 10 [y, y', y'', y''']) month)
    guard (month ≠ 0 && day ≠ 0)
    return ([y, y', y'', y''', '-', m, m', '-', d, d'], rest)
  | _ => none

/-- Reads a fraction of a second. -/
def secondFraction? : List Char → Option (List Char × List Char)
  | '.' :: rest =>
    match rest.takeWhile Char.isDigit with
    | [] => none
    | digits =>
      let kept := ((digits.take 9).reverse.dropWhile (· = '0')).reverse
      some (if kept.isEmpty then [] else '.' :: kept, rest.dropWhile Char.isDigit)
  | rest => some ([], rest)

/-- Reads a time of day at the start of a word. A minute may have a leap second. -/
def time? : List Char → Option (List Char × List Char)
  | h :: h' :: ':' :: m :: m' :: ':' :: s :: s' :: rest => do
    let _ ← pair? h h' 23
    let _ ← pair? m m' 59
    let _ ← pair? s s' 60
    let (fraction, rest) ← secondFraction? rest
    return ([h, h', ':', m, m', ':', s, s'] ++ fraction, rest)
  | _ => none

/-- The offset that a word is. No offset has no negative sign. -/
def offset? : List Char → Option (List Char)
  | [] => some []
  | ['Z'] | ['z'] => some ['Z']
  | [sign, h, h', ':', m, m'] => do
    guard (sign = '+' || sign = '-')
    let hours ← pair? h h' 23
    let minutes ← pair? m m' 59
    return [if hours = 0 && minutes = 0 then '+' else sign, h, h', ':', m, m']
  | _ => none

/-- The time that a word is, perhaps with an offset. -/
def clock? (word : List Char) : Option (List Char) := do
  let (time, rest) ← time? word
  return time ++ (← offset? rest)

/-- The date or the time that a word is, or both with a `T` between them. -/
def moment? (word : List Char) : Option (List Char) :=
  match date? word with
  | some (date, []) => some date
  | some (date, mark :: rest) =>
    if mark = 'T' || mark = 't' then (clock? rest).map fun time => date ++ 'T' :: time else none
  | none =>
    match time? word with
    | some (time, []) => some time
    | _ => none

end Toml

end Lineage
