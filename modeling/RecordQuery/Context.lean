import RecordQuery.Criteria

/-! # Query contexts

A context evaluates criteria.  Evaluation has three stages: the sources that match the selector, in
the order in which they are given; these arranged; and a window of the arranged ones.  Counting and
aggregation look at the first stage, `first`, `last` and `one` at the second, `execute` and paging
at the third.

A context carries the `Arranger` that says what arrangements do.  `Arrangement.apply` is the
standard one; what is said of queries can be said for every way of arranging. -/

namespace RecordQuery

/-! ### Windows of a list

A window is the part of a list between two indices.  A negative index counts from the end, and an
index beyond either end stands for that end, so every pair of indices has a window; it is empty
when the second index does not come after the first. -/

namespace Window

/-- The place that an index stands for in a list of the given length. -/
def place (length : Nat) (index : Int) : Nat :=
  if index < 0 then (index + length).toNat else min index.toNat length

/-- The elements from `start` on and before `stop`; without `stop`, to the end. -/
def slice {α : Type} (xs : List α) (start : Int) (stop : Option Int) : List α :=
  let upper := match stop with
    | some i => place xs.length i
    | none => xs.length
  (xs.take upper).drop (place xs.length start)

end Window

/-! ### Arranging sources -/

/-- A way of reading arrangements: what each makes of a list of sources. -/
abbrev Arranger := Arrangement Value → List Value → Except Fault (List Value)

namespace Arrangement

/-- Sources in the order of a field.  All fields are looked up before any two are compared. -/
def sortByField (field : Value) (descending : Bool) (docs : List Value) :
    Except Fault (List Value) := do
  let keyed := (← Value.fieldsOf field docs).zip docs
  let before := fun x y : Value × Value => x.1.lt y.1
  let sorted ← if descending then Sorting.sortDescending before keyed else Sorting.sort before keyed
  return sorted.map (·.2)

/-- What an arrangement makes of a list of sources. -/
def apply : Arranger := fun a docs =>
  match a.rule with
  | .reverse => .ok docs.reverse
  | .byField field descending => sortByField field descending docs
  | .rotate offset =>
    .ok (Window.slice docs offset none ++ Window.slice docs 0 (some offset))
  | .take count => .ok (Window.slice docs 0 (some count))
  | .twice => .ok (docs ++ docs)

end Arrangement

/-! ### Contexts -/

/-- Criteria ready to be evaluated. -/
structure Context where
  criteria : Criteria
  arranger : Arranger

/-- The context of criteria under the standard reading of arrangements. -/
def Criteria.context (c : Criteria) : Context := ⟨c, Arrangement.apply⟩

namespace Context

/-! ### Stages -/

/-- The sources that match the selector. -/
def matched (x : Context) : Except Fault (List Value) :=
  Selector.filter x.criteria.selector x.criteria.documents

/-- Sources as the options arrange them. -/
def arrange (x : Context) (docs : List Value) : Except Fault (List Value) :=
  match x.criteria.options.sort with
  | none => .ok docs
  | some a => x.arranger a docs

/-- The matched sources as the options arrange them. -/
def arranged (x : Context) : Except Fault (List Value) := do x.arrange (← x.matched)

/-- The window of sources that starts after `skip` ones and has at most `limit`. -/
def window (docs : List Value) (skip : Int) (limit : Option Int) : List Value :=
  Window.slice docs skip (limit.map (skip + ·))

/-! ### Retrieval -/

/-- The arranged sources without those to skip, as many as the limit allows. -/
def execute (x : Context) : Logged (List Value) :=
  let found := do
    let docs ← x.matched
    let arranged ← x.arrange docs
    return (docs, window arranged (x.criteria.options.skip.getD 0) x.criteria.options.limit)
  match found with
  | .error e => .silent (.error e)
  | .ok (docs, results) =>
    .report .debug
      (some ("Executed query on " ++ Nat.repr x.criteria.documents.length ++ " documents: " ++
        Nat.repr docs.length ++ " matched, " ++ Nat.repr results.length ++ " returned"))
      (.ok results)

/-- Shows a visitor the results one after the other; the visitor carries a state along. -/
def iterate {σ : Type} (x : Context) (visit : σ → Value → σ) (start : σ) : Logged σ :=
  x.execute.map fun results => results.foldl visit start

/-- The first of the arranged sources. -/
def first (x : Context) : Except Fault (Option Value) := do return (← x.arranged).head?

/-- The last of the arranged sources. -/
def last (x : Context) : Except Fault (Option Value) := do return (← x.arranged).getLast?

/-- The one source that stands for the result: the first. -/
def one (x : Context) : Except Fault (Option Value) := x.first

/-- How many sources match. -/
def count (x : Context) : Except Fault Nat := do return (← x.matched).length

/-- Whether some source matches. -/
def hasAny (x : Context) : Except Fault Bool :=
  Selector.holdsForSome x.criteria.selector x.criteria.documents

/-- Whether no source matches. -/
def isEmpty (x : Context) : Except Fault Bool := do return !(← x.hasAny)

/-! ### Look-up by identity

A look-up narrows the criteria to the ids and evaluates them.  For a single id it gives the first
source found; for a collection of ids, the results of the query.  Finding nothing, or a blank source
for a single id, is a failure, which is also reported as an error. -/

/-- The failure of a look-up, reported as an error. -/
def notFound {α : Type} (x : Context) (ids : Value) : Logged α :=
  let explanation := "Document not found"
  let message : Option String := do
    return explanation ++ " for ids " ++ (← ids.display) ++ " in collection " ++
      (← x.criteria.collection.display)
  .report .error message (.error (.notFound explanation ids x.criteria.collection))

/-- What a look-up by identity gives: one source for one id, or a list for a collection of ids. -/
inductive Found where
  | one (s : Value)
  | many (docs : List Value)
  deriving Repr

/-- What was found, as a value. -/
def Found.toValue : Found → Value
  | .one s => s
  | .many docs => .list docs

/-- Finds sources by identity.  A single id gives the first source found unless it is blank, a
collection gives the results of a query; finding nothing is a failure. -/
def find (x : Context) (ids : Value) : Logged Found :=
  let narrowed : Context := { x with criteria := x.criteria.forIds ids }
  if Identity.isCollection ids then
    narrowed.execute.andThen fun docs =>
      if docs.isEmpty then x.notFound ids else .silent (.ok (.many docs))
  else
    (Logged.silent narrowed.one).andThen fun
      | some s => if s.isBlank then x.notFound ids else .silent (.ok (.one s))
      | none => x.notFound ids

end Context
end RecordQuery
