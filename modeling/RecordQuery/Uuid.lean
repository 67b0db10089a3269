import RecordQuery.Text.Numeral

/-! # Universally unique identifiers

An identifier is a 128-bit value.  Its canonical text is 32 lower-case hexadecimal digits in groups
of 8, 4, 4, 4 and 12 with hyphens between them.  `ofText?` reads many more spellings: the marks
`urn:` and `uuid:` are removed wherever they stand, then braces around the text, then every hyphen;
what remains must be 32 characters long and a hexadecimal numeral. -/

namespace RecordQuery

/-- A universally unique identifier. -/
structure Uuid where
  bits : BitVec 128
  deriving DecidableEq, Repr

namespace Uuid

/-! ### Writing -/

/-- The 32 digits of an identifier. -/
def digits (u : Uuid) : List Char := Text.writeHex 32 u.bits.toNat

/-- Cuts a list into groups of the given lengths with a hyphen between neighbours. -/
def hyphenate : List Nat → List Char → List Char
  | [], cs => cs
  | n :: ns, cs => cs.take n ++ '-' :: hyphenate ns (cs.drop n)

/-- The characters of the canonical text. -/
def chars (u : Uuid) : List Char := hyphenate [8, 4, 4, 4] u.digits

/-- The canonical text. -/
def text (u : Uuid) : String := String.ofList u.chars

/-! ### Reading -/

/-- Removes every occurrence of a mark, from left to right; `skip` characters of an occurrence
that was just found remain to be dropped. -/
def removeMark (mark : List Char) : Nat → List Char → List Char
  | _, [] => []
  | skip + 1, _ :: cs => removeMark mark skip cs
  | 0, c :: cs =>
    if mark.isPrefixOf (c :: cs) then removeMark mark (mark.length - 1) cs
    else c :: removeMark mark 0 cs

/-- Whether a character is a brace. -/
def isBrace (c : Char) : Bool := c == '\x7b' || c == '\x7d'

/-- The text without the braces around it. -/
def trimBraces (cs : List Char) : List Char :=
  ((cs.dropWhile isBrace).reverse.dropWhile isBrace).reverse

/-- The characters that must form the numeral of an identifier. -/
def clean (cs : List Char) : List Char :=
  let unmarked := removeMark "uuid:".toList 0 (removeMark "urn:".toList 0 cs)
  (trimBraces unmarked).filter (· != '-')

/-- Reads the characters of an identifier in any of its spellings. -/
def ofChars? (cs : List Char) : Option Uuid :=
  let body := clean cs
  if body.length = 32 then
    match Text.readHexNumeral? body with
    | some (.ofNat n) => if n < Nat.pow 2 128 then some ⟨BitVec.ofNat 128 n⟩ else none
    | _ => none
  else none

/-- Reads an identifier in any of its spellings. -/
def ofText? (s : String) : Option Uuid := ofChars? s.toList

end Uuid

end RecordQuery
