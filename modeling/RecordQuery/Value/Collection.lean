import RecordQuery.Fault
import RecordQuery.Value.Same

/-! # Values as collections

A dictionary is a list of entries in insertion order whose keys are pairwise different under
`Value.same`.  Inserting under a key that is already there replaces the value and keeps the first
form of the key and its place.

Some values can be walked through: a text gives its characters, a dictionary its keys.  A value can
also be taken for the entries of a dictionary: another dictionary is copied, and of anything else
every element must be a pair of a hashable key and a value.

The named arguments of a call are a dictionary.  None of them may name a parameter that the call
has a value for already. -/

namespace RecordQuery

/-! ### Dictionaries -/

namespace Dict

/-- The value stored under a key. -/
def get? (d : Dict) (key : Value) : Option Value :=
  (d.find? fun e => key.same e.1).map (·.2)

/-- Whether a key is present. -/
def contains (d : Dict) (key : Value) : Bool := d.any fun e => key.same e.1

/-- Stores a value under a key, in the place of an equal key if there is one. -/
def insert (d : Dict) (key value : Value) : Dict :=
  match d with
  | [] => [(key, value)]
  | e :: es => if key.same e.1 then (e.1, value) :: es else e :: insert es key value

/-- Stores every entry of the second dictionary in the first one. -/
def merge (d e : Dict) : Dict := e.foldl (fun d x => insert d x.1 x.2) d

/-- The dictionary of a list of entries; of equal keys the last value counts. -/
def ofEntries (entries : List (Value × Value)) : Dict := merge [] entries

/-- The keys in insertion order. -/
def keys (d : Dict) : List Value := d.map (·.1)

/-- Named values as entries with text keys. -/
def ofNamed (fields : List (String × Value)) : Dict :=
  ofEntries (fields.map fun f => (.text f.1, f.2))

/-- The first of some parameters that a named argument of a call names. -/
def named? (parameters : List String) (arguments : Dict) : Option String :=
  arguments.findSome? fun e => parameters.find? fun name => (Value.text name).same e.1

/-- The named arguments of a call that has values for some parameters already. -/
def checkNamed (call : String) (parameters : List String) (arguments : Dict) :
    Except Fault Dict :=
  match named? parameters arguments with
  | some name => .error (.repeatedArgument call name)
  | none => .ok arguments

end Dict

/-- The elements of a set: of equal values the first one counts. -/
def Value.distinctItems (items : List Value) : List Value :=
  items.foldl (fun kept v => if v.memberOf kept then kept else kept ++ [v]) []

/-! ### Elements and entries -/

namespace Value

/-- The elements of a value in order. -/
def items : Value → Except Fault (List Value)
  | .text s => .ok (s.toList.map fun c => .text (String.ofList [c]))
  | .list items | .tuple items | .set _ items => .ok items
  | .dict entries => .ok (Dict.keys entries)
  | v => .error (.notIterable v.kind)

/-- The number of elements of a value. -/
def size : Value → Except Fault Nat
  | .text s => .ok s.length
  | .list items | .tuple items | .set _ items => .ok items.length
  | .dict entries => .ok entries.length
  | .record _ size _ => .ok size
  | v => .error (.noLength v.kind)

/-- The elements of the `index`-th element of a list of pairs. -/
def pairItems (index : Nat) (v : Value) : Except Fault (List Value) :=
  match v.items with
  | .ok items => .ok items
  | .error _ => .error (.entryNotSequence index)

/-- Stores pairs of key and value one after the other; the first is the `index`-th. -/
def storePairs (d : Dict) (index : Nat) : List Value → Except Fault Dict
  | [] => .ok d
  | v :: vs => do
    match ← pairItems index v with
    | [key, value] =>
      match key.unhashable? with
      | some kind => .error (.unhashable kind)
      | none => storePairs (Dict.insert d key value) (index + 1) vs
    | parts => .error (.entryLength index parts.length)

/-- A value as the entries of a dictionary. -/
def entries : Value → Except Fault Dict
  | .dict entries => .ok entries
  | v => do storePairs [] 0 (← v.items)

/-- A value as the entries of a dictionary, where anything that counts as false has none. -/
def entriesOrNone (v : Value) : Except Fault Dict :=
  if v.truthy then v.entries else .ok []

/-- A value as a list of elements, where anything that counts as false has none. -/
def itemsOrNone (v : Value) : Except Fault (List Value) :=
  if v.truthy then v.items else .ok []

end Value

end RecordQuery
