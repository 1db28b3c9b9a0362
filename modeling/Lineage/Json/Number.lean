/-!
# Numbers of JSON

The value of a written number as a significand of 64 bits and a decimal exponent. Digits that do not
fit into the significand any more are dropped. A number must not exceed the largest double.
-/

namespace Lineage

namespace Json

/-- A significand and a decimal exponent. -/
structure Scaled where
  significand : Nat := 0
  exponent : Int := 0
  /-- Whether a digit was dropped already. -/
  full : Bool := false

namespace Scaled

/-- Whether the significand has room for one more digit. -/
def hasRoom (s : Scaled) (digit : Nat) : Bool :=
  !s.full && s.significand * 10 + digit < Nat.pow 2 64

/-- Takes a digit before the point. -/
def integerDigit (s : Scaled) (digit : Nat) : Scaled :=
  if s.hasRoom digit then { s with significand := s.significand * 10 + digit }
  else { s with exponent := s.exponent + 1, full := true }

/-- Takes a digit after the point. -/
def fractionDigit (s : Scaled) (digit : Nat) : Scaled :=
  if s.hasRoom digit then
    { s with significand := s.significand * 10 + digit, exponent := s.exponent - 1 }
  else { s with full := true }

def point (s : Scaled) : Scaled :=
  { s with full := false }

/-- A natural number rounded to 53 binary digits, a tie to even. -/
def roundDouble (n : Nat) : Nat :=
  let unit := Nat.pow 2 (n.log2 - 52)
  let quotient := n / unit
  let remainder := n % unit
  let up := 2 * remainder > unit || (2 * remainder == unit && quotient % 2 == 1)
  (if up then quotient + 1 else quotient) * unit

/-- Whether a number is beyond the largest double. Powers of ten beyond `10 ^ 308` are. -/
def isHuge (s : Scaled) : Bool :=
  s.significand ≠ 0 &&
    (s.exponent > 308 ||
      (s.exponent ≥ 0 &&
        roundDouble s.significand * roundDouble (Nat.pow 10 s.exponent.toNat) ≥
          Nat.pow 2 1024 - Nat.pow 2 970))

end Scaled

end Json

end Lineage
