import RecordQuery.Value.Field

/-! # Selectors

A selector maps field names to what is expected of the fields.  An expected dictionary whose only
key is `$in`, with a collection under it, expects the field to equal one of the elements of the
collection; anything else expects the field to equal it.  A source matches a selector when it
satisfies every entry; an absent field satisfies none, not even an expected null.  Entries are
looked at in order, and those after the first unsatisfied one are not looked at. -/

namespace RecordQuery

/-- The elements of a list, a tuple or a set. -/
def Value.collection? : Value → Option (List Value)
  | .list items | .tuple items | .set _ items => some items
  | _ => none

/-- What a selector expects of a field. -/
inductive Condition where
  | equals (expected : Value)
  | oneOf (candidates : List Value)

namespace Condition

/-- The key that marks a membership condition. -/
def membershipKey : Value := .text "$in"

/-- The candidates of an expected value that is a membership condition. -/
def candidates? : Value → Option (List Value)
  | .dict [(key, candidates)] => if membershipKey.same key then candidates.collection? else none
  | _ => none

/-- The condition that an expected value stands for. -/
def ofValue (expected : Value) : Condition :=
  match candidates? expected with
  | some candidates => .oneOf candidates
  | none => .equals expected

/-- The expected value of a membership condition. -/
def oneOfValue (candidates : List Value) : Value := .dict [(membershipKey, .list candidates)]

/-- Whether the value of a field meets a condition. -/
def holds (c : Condition) (v : Value) : Bool :=
  match c with
  | .equals expected => v.eq expected
  | .oneOf candidates => candidates.any v.eq

end Condition

namespace Selector

/-- The selector that a value is: only a dictionary is one. -/
def ofValue : Value → Except Fault Dict
  | .dict entries => .ok entries
  | v => .error (.missingAttribute v.kind "items")

/-- Whether a source satisfies one entry of a selector. -/
def satisfies (s : Value) (name expected : Value) : Except Fault Bool := do
  match ← s.field? name with
  | some v => return (Condition.ofValue expected).holds v
  | none => return false

/-- Whether a source matches a selector. -/
def accepts (selector : Dict) (s : Value) : Except Fault Bool :=
  match selector with
  | [] => .ok true
  | (name, expected) :: rest => do
    if ← satisfies s name expected then accepts rest s else return false

/-- The sources that match a selector, in order. -/
def filter (selector : Dict) : List Value → Except Fault (List Value)
  | [] => .ok []
  | s :: rest => do
    if ← accepts selector s then return s :: (← filter selector rest) else filter selector rest

/-- Whether some source matches a selector; those after the first match are not looked at. -/
def holdsForSome (selector : Dict) : List Value → Except Fault Bool
  | [] => .ok false
  | s :: rest => do
    if ← accepts selector s then return true else holdsForSome selector rest

end Selector

end RecordQuery
