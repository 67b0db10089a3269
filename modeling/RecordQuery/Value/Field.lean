import RecordQuery.Value.Collection

/-! # Fields

A query runs over sources: documents, and records of other make.  A field of a record is an entry
under its name.  A document is asked first for an entry under the whole name; failing that, the name
is cut at its dots and the segments are followed through nested dictionaries, so that `address.city`
reaches into the dictionary under `address`.

Any other value may stand among the sources as long as it is not asked for a field, which is a
fault.

Looking a field up distinguishes a field that is absent from one that holds null.  In a document or
a record it fails only for a name that is no text: one that cannot be a key, or one that a document
would have to cut. -/

namespace RecordQuery

/-! ### Dotted names -/

namespace Path

/-- Cuts characters at the dots. -/
def cut : List Char → List (List Char)
  | [] => [[]]
  | c :: cs =>
    if c = '.' then [] :: cut cs
    else
      match cut cs with
      | segment :: segments => (c :: segment) :: segments
      | [] => [[c]]

/-- The segments of a dotted name. -/
def segments (name : String) : List String := (cut name.toList).map String.ofList

/-- Follows segments through nested dictionaries. -/
def follow : Value → List String → Option Value
  | v, [] => some v
  | .dict entries, segment :: rest =>
    (Dict.get? entries (.text segment)).bind fun v => follow v rest
  | _, _ :: _ => none

end Path

/-- The value stored under a key, where asking for what cannot be a key is a fault. -/
def Dict.lookup (d : Dict) (key : Value) : Except Fault (Option Value) :=
  match key.unhashable? with
  | some kind => .error (.unhashable kind)
  | none => .ok (Dict.get? d key)

namespace Value

/-! ### Sources -/

/-- Whether a value is a document or a record. -/
def hasFields : Value → Bool
  | .document _ | .record .. => true
  | _ => false

/-- Whether a source counts as no source at all: null, or anything of size zero, does. -/
def isBlank : Value → Bool
  | .null => true
  | v => match v.size with
    | .ok n => n == 0
    | .error _ => false

/-- The document with the given named fields, the arguments of a call whose first parameter is the
class of the document. -/
def ofNamed (fields : List (String × Value)) : Except Fault Value :=
  (Dict.checkNamed "Document.of" ["cls"] (Dict.ofNamed fields)).map .document

/-! ### Look-up -/

/-- The field of a document, given its fields. -/
def documentField? (fields : Dict) (name : Value) : Except Fault (Option Value) := do
  match ← Dict.lookup fields name with
  | some v => return some v
  | none =>
    match name with
    | .text name => return Path.follow (.dict fields) (Path.segments name)
    | name => throw (.missingAttribute name.kind "split")

/-- The field of a source under a name that may be any value. -/
def field? (source name : Value) : Except Fault (Option Value) :=
  match source with
  | .document fields => documentField? fields name
  | .record _ _ fields => Dict.lookup fields name
  | v => .error (.missingAttribute v.kind "field")

/-- The field under a name, or a default where it is absent. -/
def fieldOr (source name default : Value) : Except Fault Value := do
  return (← source.field? name).getD default

/-- The field under a name, null where it is absent. -/
def field (source name : Value) : Except Fault Value := source.fieldOr name .null

/-- The field of each source, null where it is absent. -/
def fieldsOf (name : Value) : List Value → Except Fault (List Value)
  | [] => .ok []
  | s :: rest => do return (← s.field name) :: (← fieldsOf name rest)

end Value

end RecordQuery
