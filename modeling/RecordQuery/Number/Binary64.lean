/-! # Binary floating-point numbers, exactly

A finite binary64 number is a sign and a magnitude counted in units of `2 ^ -1074`, the smallest
subnormal, so a magnitude is a natural number and no operation loses anything before it rounds.
Every operation computes the exact result as a quotient of natural numbers and hands it to
`roundUnits`, the only place where rounding happens: to nearest, a tie to the even significand.

A NaN carries a tag that tells which NaN it is.  No comparison sees the tag; a container uses it to
recognise an element it already holds. -/

namespace RecordQuery

/-- A binary64 number: sign and magnitude in units of `2 ^ -1074`, an infinity, or a tagged NaN. -/
inductive Binary64 where
  | finite (negative : Bool) (units : Nat)
  | infinite (negative : Bool)
  | nan (tag : Nat)
  deriving DecidableEq, Repr

namespace Binary64

/-! ### Rounding -/

/-- The magnitude of 1 in units. -/
def unitsOfOne : Nat := Nat.pow 2 1074

/-- The first magnitude that is too large for a finite number. -/
def overflowUnits : Nat := Nat.pow 2 2098

/-- The natural number nearest to `num / den`; of two equally near ones, the even one. -/
def roundHalfEven (num den : Nat) : Nat :=
  let q := num / den
  let r := num % den
  if 2 * r < den then q else if den < 2 * r then q + 1 else q + q % 2

/-- The distance between neighbouring magnitudes around `units`: significands have 53 bits. -/
def spacing (units : Nat) : Nat := Nat.pow 2 (units.log2 - 52)

/-- The magnitude nearest to `num / den` units that a 53-bit significand can hold, ties to even. -/
def roundUnits (num den : Nat) : Nat :=
  let step := spacing (num / den)
  roundHalfEven num (den * step) * step

/-- The number nearest to `num / den` units with the given sign, infinite when it is too large. -/
def ofQuotient (negative : Bool) (num den : Nat) : Binary64 :=
  let units := roundUnits num den
  if units < overflowUnits then .finite negative units else .infinite negative

/-- A number that is finite, and nothing for any other. -/
def finite? : Binary64 → Option Binary64
  | .finite negative units => some (.finite negative units)
  | _ => none

/-- The number nearest to an integer, or nothing when the integer is too large. -/
def ofInt? (n : Int) : Option Binary64 := (ofQuotient (n < 0) (n.natAbs * unitsOfOne) 1).finite?

/-- The number nearest to the quotient of two integers, or nothing when it is too large. -/
def ofIntQuotient? (n d : Int) : Option Binary64 :=
  (ofQuotient ((n < 0) != (d < 0)) (n.natAbs * unitsOfOne) d.natAbs).finite?

/-! ### Arithmetic -/

/-- A sign and a magnitude as an integer number of units. -/
def signed (negative : Bool) (units : Nat) : Int :=
  if negative then -(units : Int) else units

/-- The number with the opposite sign. -/
def neg : Binary64 → Binary64
  | .finite negative units => .finite (!negative) units
  | .infinite negative => .infinite (!negative)
  | .nan _ => .nan 0

/-- The rounded sum.  An exact zero is negative only when both terms are. -/
def add : Binary64 → Binary64 → Binary64
  | .finite a m, .finite b n =>
    let total := signed a m + signed b n
    if total = 0 then .finite (a && b) 0 else ofQuotient (total < 0) total.natAbs 1
  | .finite _ _, .infinite b => .infinite b
  | .infinite a, .finite _ _ => .infinite a
  | .infinite a, .infinite b => if a = b then .infinite a else .nan 0
  | _, _ => .nan 0

/-- The rounded difference. -/
def sub (x y : Binary64) : Binary64 := x.add y.neg

/-- The rounded product.  A zero times an infinity has no value. -/
def mul : Binary64 → Binary64 → Binary64
  | .finite a m, .finite b n => ofQuotient (a != b) (m * n) unitsOfOne
  | .finite a m, .infinite b => if m = 0 then .nan 0 else .infinite (a != b)
  | .infinite a, .finite b n => if n = 0 then .nan 0 else .infinite (a != b)
  | .infinite a, .infinite b => .infinite (a != b)
  | _, _ => .nan 0

/-- The rounded quotient.  A quotient by zero is infinite, or has no value for zero by zero. -/
def div : Binary64 → Binary64 → Binary64
  | .finite a m, .finite b n =>
    if n = 0 then
      if m = 0 then .nan 0 else .infinite (a != b)
    else ofQuotient (a != b) (m * unitsOfOne) n
  | .finite a _, .infinite b => .finite (a != b) 0
  | .infinite a, .finite b _ => .infinite (a != b)
  | _, _ => .nan 0

/-- Whether the number is a zero of either sign. -/
def isZero : Binary64 → Bool
  | .finite _ units => units == 0
  | _ => false

/-! ### Interchange format -/

/-- Reads the 64 bits of the interchange format: sign, eleven bits of exponent, 52 of fraction.
Every NaN pattern gives the NaN with the given tag. -/
def ofBits (bits : Nat) (tag : Nat) : Binary64 :=
  let negative := bits / Nat.pow 2 63 % 2 = 1
  let exponent := bits / Nat.pow 2 52 % Nat.pow 2 11
  let fraction := bits % Nat.pow 2 52
  if exponent = 2047 then
    if fraction = 0 then .infinite negative else .nan tag
  else if exponent = 0 then .finite negative fraction
  else .finite negative ((Nat.pow 2 52 + fraction) * Nat.pow 2 (exponent - 1))

/-- Writes the 64 bits of the interchange format.  Every NaN is the positive quiet one. -/
def toBits : Binary64 → Nat
  | .finite negative units =>
    negative.toNat * Nat.pow 2 63 +
      (if units < Nat.pow 2 52 then units
      else
        let shift := units.log2 - 52
        (shift + 1) * Nat.pow 2 52 + (units / Nat.pow 2 shift - Nat.pow 2 52))
  | .infinite negative => negative.toNat * Nat.pow 2 63 + 2047 * Nat.pow 2 52
  | .nan _ => 2047 * Nat.pow 2 52 + Nat.pow 2 51

end Binary64

end RecordQuery
