import RecordQuery.Options
import RecordQuery.Selector
import RecordQuery.Settings

/-! # Criteria

Criteria collect what a query asks: the sources it runs over, a selector, options and extras.  Each
builder returns new criteria.  A `Step` is a builder call as data; `Criteria.run` makes calls one
after the other, and a call that fails leaves the criteria as they were. -/

namespace RecordQuery

/-! ### Identities

A document may be stored under an identifier or under its text, in any spelling.  The variants of an
id are the forms under which a document with this id may be stored: an identifier and its canonical
text, or a text and the identifier it spells.  Any other id is its only variant.

Looking up a list, a tuple or a set looks up each of its elements. -/

namespace Identity

/-- The forms that an id may be stored in, the given one first. -/
def variants : Value → List Value
  | .uuid u => [.uuid u, .text u.text]
  | .text s =>
    match Uuid.ofText? s with
    | some u => [.text s, .uuid u]
    | none => [.text s]
  | v => [v]

/-- Whether ids are looked up one by one. -/
def isCollection (ids : Value) : Bool := ids.collection?.isSome

/-- The ids to look up. -/
def each (ids : Value) : List Value := ids.collection?.getD [ids]

/-- The variants of all ids, each only once, in the order in which they are met. -/
def candidates (ids : Value) : List Value := Value.distinctItems ((each ids).flatMap variants)

/-- What the identity field must meet: to equal the single candidate of a single id, or else to
equal one of the candidates. -/
def expectation (ids : Value) : Value :=
  match candidates ids, isCollection ids with
  | [candidate], false => candidate
  | candidates, _ => Condition.oneOfValue candidates

end Identity

/-! ### What a query asks -/

/-- A query over some sources. -/
structure Criteria where
  documents : List Value
  selector : Dict
  options : Options
  extras : Extras
  collection : Value
  settings : Settings
  deriving Repr

namespace Criteria

/-- The criteria of a query over nothing that asks nothing. -/
def empty : Criteria where
  documents := []
  selector := []
  options := .empty
  extras := .empty
  collection := .null
  settings := .standard

/-! ### Builders -/

/-- Adds conditions; a condition on a field replaces the one that was there. -/
def withConditions (c : Criteria) (conditions : Dict) : Criteria :=
  { c with selector := Dict.merge c.selector conditions }

/-- The parameters of the call that adds conditions, which no named condition can have for its
name: the criteria and the conditions that are given by their place. -/
def filterParameters : List String := ["self", "selector"]

/-- Adds the conditions of a value that has entries, and then those of named fields. -/
def filter (c : Criteria) (conditions : Value) (named : Dict) : Except Fault Criteria := do
  let named ← named.checkNamed "Criteria.where" filterParameters
  return (c.withConditions (← conditions.entriesOrNone)).withConditions named

/-- Projects to some fields. -/
def only (c : Criteria) (fields : List Value) : Criteria :=
  { c with options := { c.options with fields } }

/-- Skips matched documents. -/
def skip (c : Criteria) (count : Value) : Except Fault Criteria := do
  let skip ← Options.checkSkip count
  return { c with options := { c.options with skip } }

/-- Limits the number of documents. -/
def limit (c : Criteria) (count : Value) : Except Fault Criteria := do
  let limit ← Options.checkLimit count
  return { c with options := { c.options with limit } }

/-- Arranges matched documents. -/
def orderBy (c : Criteria) (ordering : Value) : Except Fault Criteria := do
  let sort ← Options.checkSort ordering
  return { c with options := { c.options with sort } }

/-- Replaces the extras. -/
def withExtras (c : Criteria) (extras : Value) : Except Fault Criteria := do
  return { c with extras := ← Extras.ofValue extras }

/-- Asks for a page, and with a page size that is not null also sets the limit. -/
def paginate (c : Criteria) (page perPage : Value) : Except Fault Criteria := do
  let paged := { c with extras := ← Extras.check page }
  match perPage with
  | .null => return paged
  | perPage => paged.limit perPage

/-- Runs over other sources, which are the elements of a value. -/
def withDocuments (c : Criteria) (documents : Value) : Except Fault Criteria := do
  return { c with documents := ← documents.items }

/-- Adds the condition that the identity field holds an id, or one of several. -/
def forIds (c : Criteria) (ids : Value) : Criteria :=
  c.withConditions [(.text c.settings.idField, Identity.expectation ids)]

/-! ### Calls -/

/-- A builder call with its arguments. -/
inductive Step where
  | filter (conditions : Value) (named : Dict)
  | only (fields : List Value)
  | skip (count : Value)
  | limit (count : Value)
  | orderBy (ordering : Value)
  | extras (extras : Value)
  | paginate (page perPage : Value)
  | documents (documents : Value)
  | ids (ids : Value)
  deriving Repr

/-- Makes one call. -/
def apply (c : Criteria) : Step → Except Fault Criteria
  | .filter conditions named => c.filter conditions named
  | .only fields => .ok (c.only fields)
  | .skip count => c.skip count
  | .limit count => c.limit count
  | .orderBy ordering => c.orderBy ordering
  | .extras extras => c.withExtras extras
  | .paginate page perPage => c.paginate page perPage
  | .documents documents => c.withDocuments documents
  | .ids ids => .ok (c.forIds ids)

/-- Makes one call; a failing one changes nothing. -/
def advance (c : Criteria) (step : Step) : Criteria :=
  match c.apply step with
  | .ok next => next
  | .error _ => c

/-- Makes calls one after the other. -/
def run (c : Criteria) (steps : List Step) : Criteria := steps.foldl advance c

/-- New criteria from values of any kind: the options are read first, and the conditions must be
entries. -/
def create (documents : List Value) (collection : Value) (conditions : Option Value)
    (settings : Settings) (options : Value) : Except Fault Criteria := do
  let options ← Options.ofValue options
  let selector ← match conditions with
    | some v => Dict.ofEntries <$> v.entries
    | none => .ok []
  return { documents, selector, options, extras := .empty, collection, settings }

end Criteria
end RecordQuery
