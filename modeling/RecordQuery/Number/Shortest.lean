import RecordQuery.Number.Binary64

/-! # Shortest decimal text of a binary64 number

A number is written with the fewest significant digits that still read back as the same number,
and of several such digit strings with the one nearest to it.  `decimal` searches them exactly: the
numbers that read back as a magnitude form an interval of the line, and on the decimal grid of
each length only the two neighbours of the magnitude can be the nearest point inside it.  `Layout`
holds the decisions of the written form that are not arithmetic. -/

namespace RecordQuery
namespace Shortest

/-! ### Digits -/

/-- Decimal digits `d` and an exponent `e` that stand for `d * 10 ^ e`. -/
structure Decimal where
  digits : Nat
  exponent : Int
  deriving DecidableEq, Repr

/-- The number of decimal digits of a natural number. -/
def width (n : Nat) : Nat := (Nat.toDigits 10 n).length

/-- An interval of magnitudes with the magnitude it belongs to, all in quarters of a unit. -/
structure Interval where
  low : Nat
  value : Nat
  high : Nat
  /-- Whether the ends belong to the interval. -/
  closed : Bool
  deriving Repr

/-- The magnitudes that round to `units`.  The gap below a power of two is half the gap above it,
and the ends round to `units` when its significand is even. -/
def intervalOf (units : Nat) : Interval :=
  let step := Binary64.spacing units
  let significand := units / step
  let below := if significand = Nat.pow 2 52 ∧ 1 < step then step else 2 * step
  { low := 4 * units - below
    value := 4 * units
    high := 4 * units + 2 * step
    closed := significand % 2 == 0 }

/-- A decimal as a fraction of quarters of a unit: numerator and denominator. -/
def Decimal.quarters (d : Decimal) : Nat × Nat :=
  let quartersOfOne := 4 * Binary64.unitsOfOne
  if 0 ≤ d.exponent then (d.digits * Nat.pow 10 d.exponent.toNat * quartersOfOne, 1)
  else (d.digits * quartersOfOne, Nat.pow 10 (-d.exponent).toNat)

/-- Whether a decimal lies in an interval. -/
def Interval.contains (i : Interval) (d : Decimal) : Bool :=
  let (num, den) := d.quarters
  if i.closed then i.low * den ≤ num && num ≤ i.high * den
  else i.low * den < num && num < i.high * den

/-- The distance of a decimal from the magnitude of an interval, times its denominator. -/
def Interval.distance (i : Interval) (d : Decimal) : Nat :=
  let (num, den) := d.quarters
  ((num : Int) - (i.value * den : Nat)).natAbs

/-- The greatest decimal with the given exponent that is not above the magnitude. -/
def Interval.floorAt (i : Interval) (exponent : Int) : Decimal :=
  let quartersOfOne := 4 * Binary64.unitsOfOne
  let digits :=
    if 0 ≤ exponent then i.value / (Nat.pow 10 exponent.toNat * quartersOfOne)
    else i.value * Nat.pow 10 (-exponent).toNat / quartersOfOne
  ⟨digits, exponent⟩

/-- The decimal of the interval with the given exponent that is nearest to the magnitude, if there
is one; of two equally near ones, the one with even digits. -/
def Interval.nearestAt? (i : Interval) (exponent : Int) : Option Decimal :=
  let down := i.floorAt exponent
  let up : Decimal := ⟨down.digits + 1, exponent⟩
  match i.contains down, i.contains up with
  | true, true =>
    let a := i.distance down
    let b := i.distance up
    if a < b ∨ (a = b ∧ down.digits % 2 = 0) then some down else some up
  | true, false => some down
  | false, true => some up
  | false, false => none

/-- The least `p` with the magnitude below `10 ^ p`. -/
def magnitude (units : Nat) : Int :=
  (width (units * Nat.pow 10 324 / Binary64.unitsOfOne) : Int) - 324

/-- Removes trailing zeros from the digits; `fuel` bounds their number. -/
def Decimal.trim : Nat → Decimal → Decimal
  | 0, d => d
  | fuel + 1, d =>
    if d.digits ≠ 0 ∧ d.digits % 10 = 0 then Decimal.trim fuel ⟨d.digits / 10, d.exponent + 1⟩
    else d

/-- The shortest decimal that reads back as a magnitude other than zero.  Seventeen digits always
do, so the last alternative is never taken. -/
def decimal (units : Nat) : Decimal :=
  let i := intervalOf units
  let p := magnitude units
  let found := (List.range 17).findSome? fun k => i.nearestAt? (p - (k + 1 : Nat))
  (found.getD (i.floorAt (p - 17))).trim 17

/-! ### Layout -/

/-- How the digits of a number are laid out. -/
structure Layout where
  /-- The least decimal exponent that is written positionally. -/
  positionalFrom : Int
  /-- The first decimal exponent that is no longer written positionally. -/
  positionalBelow : Int
  /-- What follows an integer that is written positionally. -/
  integerTail : String
  /-- The least number of digits of a written exponent. -/
  exponentWidth : Nat
  infinity : String
  nan : String

/-- Positional between `1e-4` and `1e16`, an integer keeps `.0`, an exponent has a sign and two
digits at least. -/
def Layout.standard : Layout where
  positionalFrom := -4
  positionalBelow := 16
  integerTail := ".0"
  exponentWidth := 2
  infinity := "inf"
  nan := "nan"

/-- A run of zeros. -/
def zeros (n : Nat) : String := String.ofList (List.replicate n '0')

/-- Lays out a decimal positionally. -/
def Layout.positional (l : Layout) (ds : List Char) (point : Int) : String :=
  if point ≤ 0 then "0." ++ zeros (-point).toNat ++ String.ofList ds
  else if ds.length ≤ point.toNat then
    String.ofList ds ++ zeros (point.toNat - ds.length) ++ l.integerTail
  else String.ofList (ds.take point.toNat) ++ "." ++ String.ofList (ds.drop point.toNat)

/-- Lays out a decimal with one digit before the point and an exponent. -/
def Layout.scientific (l : Layout) (ds : List Char) (exponent : Int) : String :=
  let lead := String.ofList (ds.take 1)
  let rest := ds.drop 1
  let fraction := if rest.isEmpty then "" else "." ++ String.ofList rest
  let written := Nat.repr exponent.natAbs
  lead ++ fraction ++ "e" ++ (if exponent < 0 then "-" else "+") ++
    zeros (l.exponentWidth - written.length) ++ written

/-- The text of a magnitude. -/
def Layout.magnitudeText (l : Layout) (units : Nat) : String :=
  if units = 0 then "0" ++ l.integerTail
  else
    let d := decimal units
    let ds := Nat.toDigits 10 d.digits
    let point : Int := d.exponent + ds.length
    let exponent := point - 1
    if l.positionalFrom ≤ exponent ∧ exponent < l.positionalBelow then l.positional ds point
    else l.scientific ds exponent

/-- The text of a binary64 number. -/
def Layout.text (l : Layout) : Binary64 → String
  | .finite negative units => (if negative then "-" else "") ++ l.magnitudeText units
  | .infinite negative => (if negative then "-" else "") ++ l.infinity
  | .nan _ => l.nan

end Shortest

/-- The shortest text of a binary64 number in the standard layout. -/
def Binary64.text (x : Binary64) : String := Shortest.Layout.standard.text x

end RecordQuery
