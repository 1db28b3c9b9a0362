/-!
# Hexadecimal digits

Reading and writing numbers to base sixteen.
-/

namespace Lineage

/-- The value of a hexadecimal digit. -/
def hexDigit? (c : Char) : Option Nat :=
  if '0' ≤ c ∧ c ≤ '9' then some (c.toNat - '0'.toNat)
  else if 'a' ≤ c ∧ c ≤ 'f' then some (c.toNat - 'a'.toNat + 10)
  else if 'A' ≤ c ∧ c ≤ 'F' then some (c.toNat - 'A'.toNat + 10)
  else none

/-- The value of hexadecimal digits, if they are. -/
def hexValue? (digits : List Char) : Option Nat :=
  digits.foldlM (fun value c => (hexDigit? c).map fun digit => value * 16 + digit) 0

/-- A hexadecimal digit, its letters counted from the given one. -/
def hexDigit (ten : Char) (n : Nat) : Char :=
  if n < 10 then Char.ofNat ('0'.toNat + n) else Char.ofNat (ten.toNat + (n - 10))

/-- A number below `16 ^ 4` in four digits. -/
def hexDigits (ten : Char) (n : Nat) : List Char :=
  [n / 4096 % 16, n / 256 % 16, n / 16 % 16, n % 16].map (hexDigit ten)

theorem hexDigit?_hexDigit {ten : Char} (hten : ten = 'a' ∨ ten = 'A') {d : Nat} (h : d < 16) :
    hexDigit? (hexDigit ten d) = some d := by
  rcases hten with rfl | rfl
  · decide +revert
  · decide +revert

theorem hexValue?_hexDigits {ten : Char} (hten : ten = 'a' ∨ ten = 'A') {n : Nat}
    (h : n < 0x10000) : hexValue? (hexDigits ten n) = some n := by
  have hdigit : ∀ m, hexDigit? (hexDigit ten (m % 16)) = some (m % 16) := fun m =>
    hexDigit?_hexDigit hten (Nat.mod_lt m (by decide))
  simp only [hexValue?, hexDigits, List.map_cons, List.map_nil, List.foldlM_cons, List.foldlM_nil,
    hdigit, Option.map_some, Option.bind_eq_bind, Option.bind_some, Option.pure_def]
  congr 1
  omega

end Lineage
