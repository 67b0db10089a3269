import RecordQuery.Value.Basic

/-! # Equality of values

Two values are the `same` when a container that holds one of them holds the other: they are equal,
or they are one and the same NaN.  Numbers and truth values compare exactly by what they stand for;
lists and tuples element by element, and a list is never a tuple; dictionaries, sets and documents
without regard to order, and a set may be frozen or not; records and arrangements by identity.

Unordered collections are compared by marking.  Each element of the first collection marks the
elements of the second that are the same; the collections agree when every element of the first
has marked something and every element of the second is marked.  So no pair is compared twice.

Equality proper, `Value.eq`, differs only in that a NaN equals nothing, itself included. -/

namespace RecordQuery

/-- Marks more of some elements. -/
def addMarks {α : Type} (marked : List (Bool × α)) (hits : List Bool) : List (Bool × α) :=
  List.zipWith (fun m hit => (m.1 || hit, m.2)) marked hits

/-- Gives no element a mark. -/
def unmarked {α : Type} (items : List α) : List (Bool × α) := items.map (false, ·)

/-- Whether every element has a mark. -/
def allMarked {α : Type} (marked : List (Bool × α)) : Bool := marked.all (·.1)

namespace Value

mutual
/-- Whether two values are equal or are one and the same NaN. -/
def same : Value → Value → Bool
  | .null, w => match w with
    | .null => true
    | _ => false
  | .bool b, w => match w.number? with
    | some n => (Number.int (if b then 1 else 0)).same n
    | none => false
  | .number m, w => match w.number? with
    | some n => m.same n
    | none => false
  | .text s, w => match w with
    | .text t => s == t
    | _ => false
  | .uuid u, w => match w with
    | .uuid v => u == v
    | _ => false
  | .list xs, w => match w with
    | .list ys => sameItems xs ys
    | _ => false
  | .tuple xs, w => match w with
    | .tuple ys => sameItems xs ys
    | _ => false
  | .dict es, w => match w with
    | .dict fs => sameEntries es (unmarked fs)
    | _ => false
  | .set _ xs, w => match w with
    | .set _ ys => sameElements xs (unmarked ys)
    | _ => false
  | .arrangement a, w => match w with
    | .arrangement b => a.ident == b.ident
    | _ => false
  | .document es, w => match w with
    | .document fs => sameEntries es (unmarked fs)
    | _ => false
  | .record i _ _, w => match w with
    | .record j _ _ => i == j
    | _ => false
termination_by structural v => v

/-- Whether two sequences are the same element by element. -/
def sameItems : List Value → List Value → Bool
  | [], ys => ys.isEmpty
  | x :: xs, ys => match ys with
    | [] => false
    | y :: ys => same x y && sameItems xs ys
termination_by structural xs => xs

/-- Whether every element finds a partner and none of the marked ones stays without a mark. -/
def sameElements : List Value → List (Bool × Value) → Bool
  | [], ys => allMarked ys
  | x :: xs, ys =>
    let hits := ys.map fun y => same x y.2
    hits.any id && sameElements xs (addMarks ys hits)
termination_by structural xs => xs

/-- Whether every entry finds a partner and none of the marked ones stays without a mark. -/
def sameEntries : List (Value × Value) → List (Bool × (Value × Value)) → Bool
  | [], fs => allMarked fs
  | (k, v) :: es, fs =>
    let hits := fs.map fun f => same k f.2.1 && same v f.2.2
    hits.any id && sameEntries es (addMarks fs hits)
termination_by structural es => es
end

/-- Whether two values are equal.  A NaN equals nothing. -/
def eq (v w : Value) : Bool := !v.isNaN && v.same w

/-- Whether a list holds a value. -/
def memberOf (v : Value) (items : List Value) : Bool := items.any v.same

end Value

end RecordQuery
