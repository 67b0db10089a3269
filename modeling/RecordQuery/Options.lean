import RecordQuery.Sorting
import RecordQuery.Value.Collection
import RecordQuery.Value.Order

/-! # Query options

Options say how matched documents are ordered, cut and projected: `skip` drops documents from the
front, `limit` bounds how many follow, `sort` arranges them before both, and the first name of
`fields` is the key documents are grouped by.  Extras carry the number of a page beside them.

Options arrive as values of any kind and are checked one after the other: a count must be an
integer, which a truth value is not; `skip` may be zero and `limit` may not; `sort` must be an
arrangement.  Null stands for an option that is not set. -/

namespace RecordQuery

/-- Checked options of a query. -/
structure Options where
  skip : Option Int
  limit : Option Int
  sort : Option (Arrangement Value)
  fields : List Value
  deriving Repr

namespace Options

/-- No option set. -/
def empty : Options := ⟨none, none, none, []⟩

/-- What holds of all checked options: nothing negative is skipped, and a limit lets something
through. -/
structure Valid (o : Options) : Prop where
  skip_nonneg : ∀ n, o.skip = some n → 0 ≤ n
  limit_pos : ∀ n, o.limit = some n → 0 < n

/-! ### Checks -/

/-- Checks a count that may be null: an integer from `least` on. -/
def checkCount (name explanation : String) (least : Int) (v : Value) :
    Except Fault (Option Int) :=
  match v with
  | .null => .ok none
  | v =>
    match v.int? with
    | some n =>
      if least ≤ n then .ok (some n) else .error (.invalidOptions explanation (.text name) v)
    | none => .error (.invalidOptions explanation (.text name) v)

/-- Checks the number of documents to skip. -/
def checkSkip : Value → Except Fault (Option Int) :=
  checkCount "skip" "skip must be a non-negative integer" 0

/-- Checks the greatest number of documents to return. -/
def checkLimit : Value → Except Fault (Option Int) :=
  checkCount "limit" "limit must be a positive integer" 1

/-- Checks an ordering. -/
def checkSort : Value → Except Fault (Option (Arrangement Value))
  | .null => .ok none
  | .arrangement a => .ok (some a)
  | v => .error (.invalidOptions "sort must be a callable ordering" (.text "sort") v)

/-- Checks options, first `skip`, then `limit`, `sort` and the projection, which may be anything
that has elements. -/
def check (skip limit sort fields : Value) : Except Fault Options := do
  let skip ← checkSkip skip
  let limit ← checkLimit limit
  let sort ← checkSort sort
  let fields ← fields.items
  return ⟨skip, limit, sort, fields⟩

/-! ### Dictionaries of options -/

/-- The names as one text, separated by commas; every one must be a text. -/
def joinNames (names : List Value) : Except Fault String := do
  return ", ".intercalate (← go 0 names)
where
  /-- The texts of the names from the `index`-th on. -/
  go (index : Nat) : List Value → Except Fault (List String)
    | [] => .ok []
    | .text s :: rest => do return s :: (← go (index + 1) rest)
    | v :: _ => .error (.nameNotText index v.kind)

/-- The keys of a dictionary that are not among the given names. -/
def unknownKeys (names : List String) (d : Dict) : List Value :=
  (Dict.keys d).filter fun k => !k.memberOf (names.map .text)

/-- Refuses a dictionary with keys that are not among the given names, listing them in order. -/
def refuseUnknown (explanation : String) (names : List String) (d : Dict) :
    Except Fault Unit := do
  match unknownKeys names d with
  | [] => return ()
  | unknown =>
    let names ← joinNames (← Sorting.sort Value.lt unknown)
    throw (.invalidOptions explanation (.text names) .null)

/-- The entry of a dictionary under a name, null where there is none. -/
def entry (d : Dict) (name : String) : Value := (Dict.get? d (.text name)).getD .null

/-- The names of the options. -/
def names : List String := ["skip", "limit", "sort", "fields"]

/-- Reads options from a value that has the entries of a dictionary. -/
def ofValue (v : Value) : Except Fault Options := do
  let d ← v.entriesOrNone
  refuseUnknown "Unrecognized query option" names d
  let fields ← (entry d "fields").itemsOrNone
  check (entry d "skip") (entry d "limit") (entry d "sort") (.tuple fields)

/-- The entries of the options that are set. -/
def toDict (o : Options) : Dict :=
  (match o.skip with
    | some n => [(.text "skip", .int n)]
    | none => []) ++
  (match o.limit with
    | some n => [(.text "limit", .int n)]
    | none => []) ++
  (match o.sort with
    | some a => [(.text "sort", .arrangement a)]
    | none => []) ++
  (if o.fields.isEmpty then [] else [(.text "fields", .list o.fields)])

/-- The field that documents are grouped by. -/
def groupingField (o : Options) : Option Value := o.fields.head?

end Options

/-! ### Extras -/

/-- Paging hints of a query.  A page that is not positive is kept and later treated as absent. -/
structure Extras where
  page : Option Int
  deriving DecidableEq, Repr

namespace Extras

/-- No hint. -/
def empty : Extras := ⟨none⟩

/-- Checks the number of a page, which may be null. -/
def check (page : Value) : Except Fault Extras :=
  match page with
  | .null => .ok empty
  | v =>
    match v.int? with
    | some n => .ok ⟨some n⟩
    | none => .error (.invalidOptions "page must be an integer" (.text "page") v)

/-- Reads hints from a value that has the entries of a dictionary. -/
def ofValue (v : Value) : Except Fault Extras := do
  let d ← v.entriesOrNone
  Options.refuseUnknown "Unrecognized pagination extra" ["page"] d
  check (Options.entry d "page")

/-- The entries of the hints that are set. -/
def toDict (e : Extras) : Dict :=
  match e.page with
  | some n => [(.text "page", .int n)]
  | none => []

end Extras

end RecordQuery
