/-!
# `Parley/Arith/Precision.lean` — calculating exactly, or in so many significant bits

A calculation on rational numbers is carried out at a **precision**: exactly, or with every result
rounded to the nearest number of so many significant binary digits, a tie going to the neighbour
whose last digit is even. The exact calculation is the one that laws are stated for; the rounded
ones are what sixty-four and thirty-two bit hardware computes within its range of exponents.

Rounding leaves alone every number that has few enough binary digits (`round_of_dyadic`), so on
whole numbers of a moderate size all precisions calculate alike (`round_of_small`).
-/

set_option autoImplicit false

namespace Parley.Arith

/-- The power of two with a whole exponent, negative ones included. -/
def twoPow : Int → Rat
  | .ofNat n => Nat.pow 2 n
  | .negSucc n => mkRat 1 (Nat.pow 2 (n + 1))

/-- The exponent of the highest binary digit of a number other than zero: `2 ^ exponent q ≤ |q|`
and `|q| < 2 ^ (exponent q + 1)`. -/
def exponent (q : Rat) : Int :=
  let guess : Int := (q.num.natAbs.log2 : Int) - (q.den.log2 : Int)
  if twoPow guess * q.den ≤ q.num.natAbs then guess else guess - 1

/-- The nearest whole number; a tie goes to the even one. -/
def nearestEven (q : Rat) : Int :=
  let low := q.floor
  let rest := q - low
  if rest < 1 / 2 then low
  else if 1 / 2 < rest then low + 1
  else if low % 2 = 0 then low else low + 1

/-- The nearest whole number; a tie goes away from zero. -/
def nearestAway (q : Rat) : Int :=
  if 0 ≤ q then (q + 1 / 2).floor else -(-q + 1 / 2).floor

/-- How exactly a calculation is carried out. -/
inductive Precision where
  /-- On the numbers as they are. -/
  | exact
  /-- With each result rounded to this many significant binary digits. -/
  | significant (bits : Nat)
  deriving DecidableEq

namespace Precision

/-- Twenty-four significant digits. -/
def single : Precision := .significant 24

/-- Fifty-three significant digits. -/
def double : Precision := .significant 53

/-- A result as the precision keeps it. -/
def round : Precision → Rat → Rat
  | .exact, q => q
  | .significant bits, q =>
    if q.den = Nat.pow 2 q.den.log2 ∧ q.num.natAbs ≤ Nat.pow 2 bits then q
    else
      let unit := twoPow (exponent q + 1 - bits)
      nearestEven (q / unit) * unit

/-- Nothing is lost on a number that has few enough binary digits, before the point and after it. -/
theorem round_of_dyadic {bits : Nat} {q : Rat} (hden : q.den = Nat.pow 2 q.den.log2)
    (hnum : q.num.natAbs ≤ Nat.pow 2 bits) : (significant bits).round q = q := by
  simp only [round]
  exact if_pos ⟨hden, hnum⟩

/-- Nothing is lost on a whole number that has few enough digits. -/
theorem round_of_small {bits : Nat} {q : Rat} (hden : q.den = 1)
    (hnum : q.num.natAbs ≤ Nat.pow 2 bits) : (significant bits).round q = q :=
  round_of_dyadic (by rw [hden]; decide) hnum

end Precision

/-- The sign, exponent and fraction fields of a number in single precision, for numbers within the
range of exponents that has all twenty-four digits. -/
def singleBits (q : Rat) : UInt32 :=
  if q = 0 then 0
  else
    let e := exponent q
    let digits := (nearestEven (q.abs / twoPow (e - 23))).toNat
    let sign : Nat := if q < 0 then 0x80000000 else 0
    UInt32.ofNat (sign + (e + 127).toNat * 0x800000 + (digits - 0x800000))

end Parley.Arith
