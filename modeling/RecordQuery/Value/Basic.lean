import RecordQuery.Number.Basic
import RecordQuery.Uuid

/-! # Values

Documents, selectors and options hold dynamically typed values.  A dictionary is the list of its
entries in insertion order, and a set the list of its elements; `Value.same`, in `Value.Same`,
compares them without regard to order.

Every value has a kind, which error messages name, and a truth value.  A value is hashable when it
may be a key of a dictionary: lists, dictionaries, sets and documents may not, nor a tuple that
holds one of them at any depth.

An arrangement is a value too.  It reorders the documents that a query has matched, and may also
drop documents or give them more than once; what it makes of them is `Arrangement.apply`. -/

namespace RecordQuery

/-! ### Arrangements -/

/-- What an arrangement does, where fields have names of a given type. -/
inductive Arrangement.Rule (Name : Type) where
  /-- The reverse order. -/
  | reverse
  /-- The order of the values of a field, stable also when it is descending. -/
  | byField (field : Name) (descending : Bool)
  /-- The documents from an index on, then those before it. -/
  | rotate (offset : Int)
  /-- The documents before an index. -/
  | take (count : Int)
  /-- The documents twice over. -/
  | twice
  deriving Repr

/-- A rule with the identity of the arrangement: two arrangements of one rule are still two. -/
structure Arrangement (Name : Type) where
  ident : Nat
  rule : Arrangement.Rule Name
  deriving Repr

/-! ### Values -/

/-- A dynamically typed value. -/
inductive Value where
  | null
  | bool (b : Bool)
  | number (n : Number)
  | text (s : String)
  | uuid (u : Uuid)
  | list (items : List Value)
  | tuple (items : List Value)
  | dict (entries : List (Value × Value))
  /-- A set; a frozen one is hashable. -/
  | set (frozen : Bool) (items : List Value)
  /-- An arrangement, which may name a field by any value. -/
  | arrangement (a : Arrangement Value)
  /-- A document: named fields, in which a dotted name reaches into nested dictionaries. -/
  | document (fields : List (Value × Value))
  /-- A record of another make: an identity, a length, and fields without dotted names. -/
  | record (ident size : Nat) (fields : List (Value × Value))
  deriving Repr

/-- Entries in insertion order. -/
abbrev Dict := List (Value × Value)

/-- The kind of a value, as error messages name it. -/
inductive Kind where
  | null
  | bool
  | int
  | float
  | text
  | uuid
  | list
  | tuple
  | dict
  | set
  | frozenset
  | arrangement
  | document
  | record
  deriving DecidableEq, Repr

/-- The name of a kind. -/
def Kind.name : Kind → String
  | .null => "NoneType"
  | .bool => "bool"
  | .int => "int"
  | .float => "float"
  | .text => "str"
  | .uuid => "UUID"
  | .list => "list"
  | .tuple => "tuple"
  | .dict => "dict"
  | .set => "set"
  | .frozenset => "frozenset"
  | .arrangement => "Ordering"
  | .document => "Document"
  | .record => "Record"

namespace Value

/-- An integer as a value. -/
abbrev int (n : Int) : Value := .number (.int n)

/-- A binary64 number as a value. -/
abbrev float (x : Binary64) : Value := .number (.float x)

/-- The kind of a value. -/
def kind : Value → Kind
  | .null => .null
  | .bool _ => .bool
  | .number (.int _) => .int
  | .number (.float _) => .float
  | .text _ => .text
  | .uuid _ => .uuid
  | .list _ => .list
  | .tuple _ => .tuple
  | .dict _ => .dict
  | .set false _ => .set
  | .set true _ => .frozenset
  | .arrangement _ => .arrangement
  | .document _ => .document
  | .record .. => .record

/-- The number a value stands for: truth values count as one and zero. -/
def number? : Value → Option Number
  | .bool b => some (.int (if b then 1 else 0))
  | .number n => some n
  | _ => none

/-- Whether a value is a NaN. -/
def isNaN : Value → Bool
  | .number n => n.isNaN
  | _ => false

/-- The integer a value is; a truth value is none. -/
def int? : Value → Option Int
  | .number (.int n) => some n
  | _ => none

/-- Whether a value counts as true: zero and everything empty counts as false. -/
def truthy : Value → Bool
  | .null => false
  | .bool b => b
  | .number n => !n.isZero
  | .text s => !s.isEmpty
  | .list items | .tuple items | .set _ items => !items.isEmpty
  | .dict entries => !entries.isEmpty
  | .record _ size _ => size != 0
  | .uuid _ | .arrangement _ | .document _ => true

/-! ### Hashing -/

mutual
/-- The kind that keeps a value from being a key, or nothing when the value is hashable. -/
def unhashable? : Value → Option Kind
  | .list _ => some .list
  | .dict _ => some .dict
  | .set false _ => some .set
  | .document _ => some .document
  | .tuple items => firstUnhashable? items
  | _ => none
termination_by structural v => v

/-- The kind of the first part of a tuple that keeps the tuple from being a key. -/
def firstUnhashable? : List Value → Option Kind
  | [] => none
  | v :: vs =>
    match unhashable? v with
    | some k => some k
    | none => firstUnhashable? vs
termination_by structural vs => vs
end

/-- Whether a value may be a key of a dictionary. -/
def hashable (v : Value) : Bool := v.unhashable?.isNone

/-- Whether a value may stand for an ordering. -/
def isArrangement : Value → Bool
  | .arrangement _ => true
  | _ => false

end Value

end RecordQuery
