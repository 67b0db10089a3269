import RecordQuery.Text.Numeral

/-! # Integers in running text

An integer is read leniently from decimal digits of ASCII: blanks around it, one plus sign, leading
zeros and underscores after a zero, a point that zeros and nothing else follow, and single
underscores between digits are allowed.  The zeros may stand after a minus sign or before one, but
not on both sides of it.  What is left is a numeral, which is read strictly: a minus sign at most,
digits without a needless zero in front, and no more than `numeralBound` characters.

An integer is written with as many digits as it has, which must not be more than `maxDigits`: a
longer one has no text. -/

namespace RecordQuery
namespace Text

/-- Whether a character is a decimal digit of ASCII. -/
def isDigit (c : Char) : Bool := '0' ≤ c && c ≤ '9'

/-! ### From a text to a numeral -/

/-- The characters without one plus sign in front; a plus sign and a minus sign are too many. -/
def dropPlus? : List Char → Option (List Char)
  | '+' :: '-' :: _ => none
  | '+' :: cs => some cs
  | cs => some cs

/-- The characters after leading zeros and underscores; `last` is the character just dropped, which
stays where a point or nothing follows it. -/
def afterZeros? (last : Char) : List Char → Option (List Char)
  | [] => some [last]
  | c :: cs =>
    if c = '0' ∨ c = '_' then afterZeros? c cs
    else if c = '.' then some (last :: c :: cs)
    else if isDigit c || c == '-' then some (c :: cs)
    else none

/-- The characters without leading zeros, for a text that starts with a digit. -/
def dropZeros? : List Char → Option (List Char)
  | [] => none
  | c :: cs =>
    if c = '0' then afterZeros? c cs
    else if isDigit c then some (c :: cs)
    else none

/-- The characters without the zeros that lead, or that follow a leading minus sign. -/
def dropSignedZeros? : List Char → Option (List Char)
  | '-' :: cs => (dropZeros? cs).map ('-' :: ·)
  | cs => dropZeros? cs

/-- The characters without a point that zeros and nothing else follow. -/
def dropPoint (cs : List Char) : List Char :=
  match cs.dropWhile (· != '.') with
  | _ :: fraction =>
    if !fraction.isEmpty && fraction.all (· == '0') then cs.takeWhile (· != '.') else cs
  | [] => cs

/-- Whether an underscore stands at an end or next to another one. -/
def hasStrayUnderscore (cs : List Char) : Bool :=
  cs.head? == some '_' || cs.getLast? == some '_' ||
    (cs.zip cs.tail).any fun p => p.1 == '_' && p.2 == '_'

/-- The characters without underscores, unless one of them is stray. -/
def dropUnderscores (cs : List Char) : List Char :=
  if hasStrayUnderscore cs then cs else cs.filter (· != '_')

/-- The numeral that a text comes down to, or nothing when it cannot be one. -/
def numeralOf? (s : String) : Option (List Char) := do
  let unsigned ← dropPlus? (trimBlanks s.toList)
  return dropUnderscores (dropPoint (← dropSignedZeros? unsigned))

/-! ### From a numeral to an integer -/

/-- The value of decimal digits, of which the first is a zero only if it is the last. -/
def decimalValue? : List Char → Option Nat
  | [] => none
  | c :: cs =>
    if !(c :: cs).all isDigit || (c == '0' && !cs.isEmpty) then none
    else some ((c :: cs).foldl (fun n d => 10 * n + (d.toNat - 48)) 0)

/-- The most characters that a numeral may have, its minus sign included. -/
def numeralBound : Nat := 4300

/-- The integer that a numeral writes. -/
def numeralValue? (cs : List Char) : Option Int :=
  if numeralBound < cs.length then none
  else
    match cs with
    | '-' :: digits => (decimalValue? digits).map fun n => -(n : Int)
    | digits => (decimalValue? digits).map fun n => (n : Int)

/-- The integer that a text stands for, or nothing when it stands for none. -/
def readInteger? (s : String) : Option Int :=
  (numeralOf? s).bind numeralValue?

/-! ### From an integer to its text -/

/-- The most digits that an integer may have to be written. -/
def maxDigits : Nat := 4300

/-- The least number that has too many digits.  It is irreducible since elaboration, which would
unfold it in passing, is not to evaluate the power. -/
@[irreducible] def integerBound : Nat := Nat.pow 10 maxDigits

/-- The text of an integer, unless it has too many digits; a sign is no digit. -/
def ofInt? (n : Int) : Option String :=
  if (Nat.toDigits 10 n.natAbs).length ≤ maxDigits then some (Int.repr n) else none

theorem length_digits_le_iff (n : Nat) :
    (Nat.toDigits 10 n).length ≤ maxDigits ↔ n < integerBound := by
  -- with a number of digits in place of the bound, which is not to be evaluated
  have hcount : ∀ count, 0 < count →
      ((Nat.toDigits 10 n).length ≤ count ↔ n < Nat.pow 10 count) := fun count h =>
    Nat.length_toDigits_le_iff (by decide) h
  unfold integerBound
  exact hcount maxDigits (by decide)

theorem integerBound_pos : 0 < integerBound := by
  have hcount : ∀ count, 0 < Nat.pow 10 count := fun count => Nat.pow_pos (by decide)
  unfold integerBound
  exact hcount maxDigits

theorem not_integerBound_lt : ¬(integerBound : Int).natAbs < integerBound := by
  rw [Int.natAbs_natCast]
  exact Nat.lt_irrefl _

theorem ofInt?_of_lt {n : Int} (h : n.natAbs < integerBound) : ofInt? n = some (Int.repr n) :=
  if_pos ((length_digits_le_iff _).mpr h)

theorem ofInt?_of_not_lt {n : Int} (h : ¬n.natAbs < integerBound) : ofInt? n = none :=
  if_neg fun hlength => h ((length_digits_le_iff _).mp hlength)

/-- An integer is written just when it is below the bound. -/
theorem ofInt?_eq_some_iff {n : Int} {s : String} :
    ofInt? n = some s ↔ n.natAbs < integerBound ∧ s = Int.repr n := by
  by_cases h : n.natAbs < integerBound
  · rw [ofInt?_of_lt h, Option.some.injEq, eq_comm, and_iff_right h]
  · rw [ofInt?_of_not_lt h]
    exact iff_of_false nofun fun hs => h hs.1

end Text
end RecordQuery
