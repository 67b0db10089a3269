import RecordQuery.Fault

/-! # Arithmetic on values

Truth values take part as one and zero.  Two texts, two lists or two tuples can be joined by `add`,
and a sequence can be repeated by `mul`.  Every other pair of operands is a fault that names the
kinds of both, the left one first. -/

namespace RecordQuery
namespace Value

/-- The result of an operation on numbers as a value. -/
def ofArithmetic (r : Except ArithmeticError Number) : Except Fault Value :=
  match r with
  | .ok n => .ok (.number n)
  | .error e => .error (.arithmetic e)

/-- Applies an operation on numbers, or else says what is to happen with other operands. -/
def onNumbers (op : Number → Number → Except ArithmeticError Number)
    (otherwise : Except Fault Value) (v w : Value) : Except Fault Value :=
  match v.number?, w.number? with
  | some m, some n => ofArithmetic (op m n)
  | _, _ => otherwise

/-- The fault of an operation that its operands do not support. -/
def unsupported (operation : Operation) (v w : Value) : Except Fault Value :=
  .error (.unsupportedOperands operation v.kind w.kind)

/-- Joins two sequences of one kind. -/
def join : Value → Value → Except Fault Value
  | .text s, .text t => .ok (.text (s ++ t))
  | .list xs, .list ys => .ok (.list (xs ++ ys))
  | .tuple xs, .tuple ys => .ok (.tuple (xs ++ ys))
  | .text _, w => .error (.cannotConcatenate .text w.kind)
  | .list _, w => .error (.cannotConcatenate .list w.kind)
  | .tuple _, w => .error (.cannotConcatenate .tuple w.kind)
  | v, w => unsupported .add v w

/-- The sum of two numbers, or two sequences one after the other. -/
def add (v w : Value) : Except Fault Value := onNumbers Number.add (join v w) v w

/-- The difference of two numbers. -/
def sub (v w : Value) : Except Fault Value := onNumbers Number.sub (unsupported .sub v w) v w

/-- Several copies of a list one after the other. -/
def copies {α : Type} (count : Nat) (xs : List α) : List α := (List.replicate count xs).flatten

/-- A sequence repeated a number of times; nothing for a value that is no sequence. -/
def repeated? (count : Nat) : Value → Option Value
  | .text s => some (.text (String.ofList (copies count s.toList)))
  | .list xs => some (.list (copies count xs))
  | .tuple xs => some (.tuple (copies count xs))
  | _ => none

/-- The length of a sequence; nothing for a value that is no sequence. -/
def sequenceLength? : Value → Option Nat
  | .text s => some s.length
  | .list xs | .tuple xs => some xs.length
  | _ => none

/-- The greatest length of a sequence that memory has room for. -/
def sequenceRoom : Nat := Nat.pow 2 32

/-- What forbids an integer number of repetitions of a sequence of a given length: the integer must
fit an index of 64 bits, so must the length of a text, and there must be room for the result. -/
def repetitionFault? (count : Int) (length : Nat) (w : Value) : Option Fault :=
  let total := count.toNat * length
  if count < -Int.pow 2 63 ∨ Int.pow 2 63 ≤ count then some .repetitionTooLarge
  else if w.kind = .text ∧ Nat.pow 2 63 ≤ total then some .textTooLong
  else if sequenceRoom < total then some .outOfMemory
  else none

/-- The product of an operand on the left and one that is no number on the right. A negative number
of repetitions counts as zero, and nothing is always repeated to nothing. -/
def repetition (v w : Value) : Except Fault Value :=
  match v.number?, sequenceLength? w with
  | some (.int count), some length =>
    match repetitionFault? count length w with
    | some fault => .error fault
    | none => .ok ((repeated? (if length = 0 then 0 else count.toNat) w).getD w)
  | some (.float _), some _ => .error (.cannotRepeat v.kind)
  | _, _ => unsupported .mul v w

/-- The product of two numbers, or a sequence on the right repeated by an integer on the left. -/
def mul (v w : Value) : Except Fault Value := onNumbers Number.mul (repetition v w) v w

/-- The quotient of two numbers as a binary64 number. -/
def div (v w : Value) : Except Fault Value :=
  onNumbers (fun m n => (m.div n).map .float) (unsupported .div v w) v w

/-- The least integer that is not below the quotient of two numbers. -/
def ceilDiv (v w : Value) : Except Fault Value :=
  onNumbers (fun m n => do return .int (← (← m.div n).ceil)) (unsupported .div v w) v w

end Value
end RecordQuery
