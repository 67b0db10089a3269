import RecordQuery.Number.Binary64

/-! # Numbers

A number is an unbounded integer or a binary64 number.  Comparison is exact whatever the two
representations are: every number but NaN has a `Position` on the extended line, in the units of
binary64, and numbers compare as their positions do.  Arithmetic on two integers stays exact, and
converts an integer that meets a binary64 number; the quotient of two integers is the binary64
number nearest to the exact quotient. -/

namespace RecordQuery

/-- An unbounded integer or a binary64 number. -/
inductive Number where
  | int (n : Int)
  | float (x : Binary64)
  deriving DecidableEq, Repr

/-- Why an operation on numbers has no result. -/
inductive ArithmeticError where
  /-- An integer meets a binary64 number and is too large to become one. -/
  | intTooLarge
  /-- The quotient of two integers is too large for a binary64 number. -/
  | quotientTooLarge
  | divisionByZero
  /-- NaN has no integer above it. -/
  | nanToInteger
  /-- An infinity has no integer above it. -/
  | infinityToInteger
  deriving DecidableEq, Repr

namespace ArithmeticError

/-- The wording of an arithmetic error. -/
def message : ArithmeticError → String
  | .intTooLarge => "int too large to convert to float"
  | .quotientTooLarge => "integer division result too large for a float"
  | .divisionByZero => "division by zero"
  | .nanToInteger => "cannot convert float NaN to integer"
  | .infinityToInteger => "cannot convert float infinity to integer"

end ArithmeticError

/-! ### The extended line -/

/-- A point of the extended line: `side` is `-1` or `1` for an infinity, with no units, and `0`
for a finite point. -/
structure Position where
  side : Int
  units : Int
  deriving DecidableEq, Repr

/-- Whether one point lies strictly before another: by side, then by units. -/
def Position.before (p q : Position) : Bool :=
  p.side < q.side || (p.side == q.side && p.units < q.units)

/-- What tells one number from another: the point it stands for, or the tag of a NaN. -/
inductive Number.Identity where
  | point (p : Position)
  | nan (tag : Nat)
  deriving DecidableEq, Repr

/-- The point of a number that is no NaN. -/
def Number.Identity.position? : Number.Identity → Option Position
  | .point p => some p
  | .nan _ => none

/-- What tells a binary64 number from another.  The two zeros share a point. -/
def Binary64.identity : Binary64 → Number.Identity
  | .finite negative units => .point ⟨0, signed negative units⟩
  | .infinite negative => .point ⟨if negative then -1 else 1, 0⟩
  | .nan tag => .nan tag

/-- The least integer that is not below a binary64 number. -/
def Binary64.ceil : Binary64 → Except ArithmeticError Int
  | .finite negative units => .ok (-((-signed negative units) / (unitsOfOne : Int)))
  | .infinite _ => .error .infinityToInteger
  | .nan _ => .error .nanToInteger

namespace Number

/-! ### Comparison -/

/-- What tells a number from another. -/
def identity : Number → Identity
  | .int n => .point ⟨0, n * Binary64.unitsOfOne⟩
  | .float x => x.identity

/-- The point of a number, nothing for NaN. -/
def position? (a : Number) : Option Position := a.identity.position?

/-- Whether two numbers are equal or are one and the same NaN. -/
def same (a b : Number) : Bool := a.identity == b.identity

/-- Whether a number is strictly below another.  NaN is below nothing and nothing below it. -/
def lt (a b : Number) : Bool :=
  match a.position?, b.position? with
  | some p, some q => p.before q
  | _, _ => false

/-- Whether a number is a NaN. -/
def isNaN : Number → Bool
  | .float (.nan _) => true
  | _ => false

/-- Whether a number equals zero. -/
def isZero : Number → Bool
  | .int n => n == 0
  | .float x => x.isZero

/-! ### Arithmetic -/

/-- A number as a binary64 number. -/
def toFloat : Number → Except ArithmeticError Binary64
  | .int n =>
    match Binary64.ofInt? n with
    | some x => .ok x
    | none => .error .intTooLarge
  | .float x => .ok x

/-- Applies the integer operation to two integers and the binary64 operation to any other pair. -/
def combine (onInts : Int → Int → Int) (onFloats : Binary64 → Binary64 → Binary64) :
    Number → Number → Except ArithmeticError Number
  | .int m, .int n => .ok (.int (onInts m n))
  | a, b => do
    let x ← a.toFloat
    let y ← b.toFloat
    return .float (onFloats x y)

/-- The sum, exact on integers. -/
def add : Number → Number → Except ArithmeticError Number := combine (· + ·) Binary64.add

/-- The difference, exact on integers. -/
def sub : Number → Number → Except ArithmeticError Number := combine (· - ·) Binary64.sub

/-- The product, exact on integers. -/
def mul : Number → Number → Except ArithmeticError Number := combine (· * ·) Binary64.mul

/-- The quotient as a binary64 number, for integers the one nearest to the exact quotient. -/
def div : Number → Number → Except ArithmeticError Binary64
  | .int m, .int n =>
    if n = 0 then .error .divisionByZero
    else
      match Binary64.ofIntQuotient? m n with
      | some x => .ok x
      | none => .error .quotientTooLarge
  | a, b => do
    let x ← a.toFloat
    let y ← b.toFloat
    if y.isZero then .error .divisionByZero else .ok (x.div y)

end Number

end RecordQuery
