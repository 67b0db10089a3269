import RecordQuery.Fault
import RecordQuery.Value.Same

/-! # Order of values

Numbers are ordered exactly, texts by code point, lists and tuples by their first difference,
identifiers as numbers, and sets by proper inclusion.  Values that share no order cannot be
compared, and the fault names the two that were met, in the order in which they were compared. -/

namespace RecordQuery

/-- What a comparison says of two things of one type that has an order. -/
def Comparison.holds {α : Type} (comparison : Comparison) (lt : α → α → Bool) (x y : α) : Bool :=
  match comparison with
  | .less => lt x y
  | .greater => lt y x

namespace Value

/-- Whether every element of one set is in another set with more elements. -/
def properSubset (xs ys : List Value) : Bool :=
  xs.length < ys.length && xs.all fun x => x.memberOf ys

mutual
/-- Whether a comparison holds between two values. -/
def compare (comparison : Comparison) : Value → Value → Except Fault Bool
  | .null, w => .error (.notComparable comparison .null w.kind)
  | .bool b, w => match w.number? with
    | some n => .ok (Comparison.holds comparison Number.lt (.int (if b then 1 else 0)) n)
    | none => .error (.notComparable comparison .bool w.kind)
  | .number m, w => match w.number? with
    | some n => .ok (Comparison.holds comparison Number.lt m n)
    | none => .error (.notComparable comparison (kind (.number m)) w.kind)
  | .text s, w => match w with
    | .text t => .ok (Comparison.holds comparison (fun s t : String => s < t) s t)
    | _ => .error (.notComparable comparison .text w.kind)
  | .uuid u, w => match w with
    | .uuid v => .ok (Comparison.holds comparison (fun u v => u.bits.toNat < v.bits.toNat) u v)
    | _ => .error (.notComparable comparison .uuid w.kind)
  | .list xs, w => match w with
    | .list ys => compareItems comparison xs ys
    | _ => .error (.notComparable comparison .list w.kind)
  | .tuple xs, w => match w with
    | .tuple ys => compareItems comparison xs ys
    | _ => .error (.notComparable comparison .tuple w.kind)
  | .dict _, w => .error (.notComparable comparison .dict w.kind)
  | .set frozen xs, w => match w with
    | .set _ ys => .ok (Comparison.holds comparison properSubset xs ys)
    | _ => .error (.notComparable comparison (kind (.set frozen xs)) w.kind)
  | .arrangement _, w => .error (.notComparable comparison .arrangement w.kind)
  | .document _, w => .error (.notComparable comparison .document w.kind)
  | .record .., w => .error (.notComparable comparison .record w.kind)
termination_by structural v => v

/-- Whether a comparison holds between two sequences: their first difference decides, and where
there is none their lengths. -/
def compareItems (comparison : Comparison) : List Value → List Value → Except Fault Bool
  | [], ys => .ok (comparison == .less && !ys.isEmpty)
  | x :: xs, ys => match ys with
    | [] => .ok (comparison == .greater)
    | y :: ys => if x.same y then compareItems comparison xs ys else compare comparison x y
termination_by structural xs => xs
end

/-- Whether one value lies strictly before another. -/
def lt (v w : Value) : Except Fault Bool := compare .less v w

/-- Whether one value lies strictly after another. -/
def gt (v w : Value) : Except Fault Bool := compare .greater v w

/-! ### Extrema -/

/-- The first value of a list that no later one is better than, going from left to right: a later
value replaces the best one so far when `better later best` holds. -/
def best (better : Value → Value → Except Fault Bool) (v : Value) : List Value → Except Fault Value
  | [] => .ok v
  | w :: ws => do
    if ← better w v then best better w ws else best better v ws

/-- The least value, the first of equal ones; nothing for an empty list. -/
def minimum? : List Value → Except Fault (Option Value)
  | [] => .ok none
  | v :: vs => some <$> best lt v vs

/-- The greatest value, the first of equal ones; nothing for an empty list. -/
def maximum? : List Value → Except Fault (Option Value)
  | [] => .ok none
  | v :: vs => some <$> best gt v vs

end Value
end RecordQuery
