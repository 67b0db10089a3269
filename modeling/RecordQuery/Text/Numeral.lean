/-! # Hexadecimal numerals

Digits are written in lower case, and `writeHex` pads with zeros to the width it is given.

In running text a numeral is read leniently: blanks around it, a sign, the mark `0x`, and single
underscores between digits are allowed, and the decimal digits of every script stand for their
values.  `readHexNumeral?` gives the value of such a text, or nothing when the text is no
numeral. -/

namespace RecordQuery
namespace Text

/-! ### Digits -/

/-- The lower-case digit of a value below sixteen. -/
def hexDigit (n : Nat) : Char :=
  if n < 10 then Char.ofNat (48 + n) else Char.ofNat (87 + n)

/-- The last `width` hexadecimal digits of a number, most significant first. -/
def writeHex : Nat → Nat → List Char
  | 0, _ => []
  | width + 1, n => writeHex width (n / 16) ++ [hexDigit (n % 16)]

/-- The value of a hexadecimal digit of either case. -/
def hexValue? (c : Char) : Option Nat :=
  let n := c.toNat
  if 48 ≤ n ∧ n ≤ 57 then some (n - 48)
  else if 97 ≤ n ∧ n ≤ 102 then some (n - 87)
  else if 65 ≤ n ∧ n ≤ 70 then some (n - 55)
  else none

@[simp]
theorem length_writeHex (width n : Nat) : (writeHex width n).length = width := by
  induction width generalizing n with
  | zero => rfl
  | succ width ih => simp [writeHex, ih]

theorem hexValue?_hexDigit : ∀ n, n < 16 → hexValue? (hexDigit n) = some n := by decide

/-! ### Character classes -/

/-- Whether a character may stand around a numeral: the ASCII blanks, and the separators and
blanks of Unicode beyond ASCII. -/
def isBlank (c : Char) : Bool :=
  let n := c.toNat
  n == 32 || (9 ≤ n && n ≤ 13) || n == 0x85 || n == 0xa0 || n == 0x1680 ||
    (0x2000 ≤ n && n ≤ 0x200a) || n == 0x2028 || n == 0x2029 || n == 0x202f || n == 0x205f ||
    n == 0x3000

/-- The code points of the zeros beyond ASCII; the nine digits of a script follow its zero. -/
def decimalZeros : List Nat :=
  [0x660, 0x6f0, 0x7c0, 0x966, 0x9e6, 0xa66, 0xae6, 0xb66, 0xbe6, 0xc66, 0xce6, 0xd66, 0xde6,
    0xe50, 0xed0, 0xf20, 0x1040, 0x1090, 0x17e0, 0x1810, 0x1946, 0x19d0, 0x1a80, 0x1a90, 0x1b50,
    0x1bb0, 0x1c40, 0x1c50, 0xa620, 0xa8d0, 0xa900, 0xa9d0, 0xa9f0, 0xaa50, 0xabf0, 0xff10,
    0x104a0, 0x10d30, 0x11066, 0x110f0, 0x11136, 0x111d0, 0x112f0, 0x11450, 0x114d0, 0x11650,
    0x116c0, 0x11730, 0x118e0, 0x11950, 0x11c50, 0x11d50, 0x11da0, 0x16a60, 0x16ac0, 0x16b50,
    0x1d7ce, 0x1d7d8, 0x1d7e2, 0x1d7ec, 0x1d7f6, 0x1e140, 0x1e2f0, 0x1e950, 0x1fbf0]

/-- The value of a hexadecimal digit, the decimal digits of every script included. -/
def digitValue? (c : Char) : Option Nat :=
  match hexValue? c with
  | some v => some v
  | none =>
    let n := c.toNat
    (decimalZeros.find? fun first => first ≤ n && n < first + 10).map (n - ·)

/-! ### Reading -/

/-- The text without the blanks around it. -/
def trimBlanks (cs : List Char) : List Char :=
  ((cs.dropWhile isBlank).reverse.dropWhile isBlank).reverse

/-- Reads digits with single underscores between them onto a value that already holds a digit. -/
def readDigits? : Nat → List Char → Option Nat
  | value, [] => some value
  | value, '_' :: c :: cs => (digitValue? c).bind fun d => readDigits? (16 * value + d) cs
  | value, c :: cs => (digitValue? c).bind fun d => readDigits? (16 * value + d) cs

/-- Reads digits that start with a digit. -/
def readUnsigned? : List Char → Option Nat
  | [] => none
  | c :: cs => (digitValue? c).bind fun d => readDigits? d cs

/-- Whether a character is zero in some script. -/
def isZeroDigit (c : Char) : Bool := digitValue? c == some 0

/-- The digits after an optional mark `0x`, which one underscore may follow. -/
def dropMark : List Char → List Char
  | zero :: x :: cs =>
    if isZeroDigit zero && (x == 'x' || x == 'X') then
      match cs with
      | '_' :: rest => rest
      | _ => cs
    else zero :: x :: cs
  | cs => cs

/-- Splits off an optional sign; the first part tells whether the number is negative. -/
def splitSign : List Char → Bool × List Char
  | '-' :: cs => (true, cs)
  | '+' :: cs => (false, cs)
  | cs => (false, cs)

/-- The value of a hexadecimal numeral, or nothing when the text is none. -/
def readHexNumeral? (cs : List Char) : Option Int :=
  let (negative, rest) := splitSign (trimBlanks cs)
  (readUnsigned? (dropMark rest)).map fun n => if negative then -(n : Int) else n

end Text
end RecordQuery
