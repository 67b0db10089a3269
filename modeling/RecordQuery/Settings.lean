import RecordQuery.Fault
import RecordQuery.Text.Integer

/-! # Settings

Settings say how many documents a page holds when the query does not, and which field identifies a
document.  They are read from named values, with environment variables as a second source: the name
of a variable is a common start followed by the name of the setting.  The case of letters does not
matter in names; of several values for one setting the first counts, and of several variables the
last.  A value for the page size is taken leniently, as an integer, a truth value, an integral
number or a numeral; the name of the identity field must be a text.  Every failing setting is
reported, and every name that is no setting. -/

namespace RecordQuery

/-- How queries behave where they do not say. -/
structure Settings where
  defaultPerPage : Int
  idField : String
  deriving DecidableEq, Repr

namespace Settings

/-- Twenty documents a page, identified by `_id`. -/
def standard : Settings := ⟨20, "_id"⟩

/-- What is given for a setting. -/
inductive Input where
  | bool (b : Bool)
  | int (n : Int)
  | float (x : Binary64)
  | text (s : String)
  /-- Null or a collection, which no setting takes. -/
  | other
  deriving Repr

/-! ### Checks -/

/-- The page size that is given by a value. -/
def pageSize? : Input → Option Int
  | .bool b => some (if b then 1 else 0)
  | .int n => some n
  | .float (.finite negative units) =>
    let n := Binary64.signed negative (units / Binary64.unitsOfOne)
    if units % Binary64.unitsOfOne = 0 ∧ n.natAbs < Nat.pow 2 63 then some n else none
  | .text s => Text.readInteger? s
  | _ => none

/-- The name of the identity field that is given by a value. -/
def fieldName? : Input → Option String
  | .text s => some s
  | _ => none

/-- The name of the page size. -/
def pageSizeName : String := "default_per_page"

/-- The name of the identity field's setting. -/
def fieldNameName : String := "id_field"

/-- The text in lower case, for the ASCII letters. -/
def lower (s : String) : String := String.ofList (s.toList.map Char.toLower)

/-- Whether two names differ at most in the case of their letters. -/
def sameName (s t : String) : Bool := lower s == lower t

/-- The first value of a setting that is given by name. -/
def namedValue? (named : List (String × Input)) (name : String) : Option Input :=
  (named.find? fun v => sameName v.1 name).map (·.2)

/-- The last variable with the given name. -/
def variableValue? (environment : List (String × String)) (name : String) : Option String :=
  (environment.reverse.find? fun v => sameName v.1 name).map (·.2)

/-- What is given for a setting: by name, or else by a variable. -/
def given? (start : String) (named : List (String × Input)) (environment : List (String × String))
    (name : String) : Option Input :=
  match namedValue? named name with
  | some input => some input
  | none => (variableValue? environment (start ++ name)).map .text

/-- A setting with a default: its value, or its name when what is given for it fails. -/
def resolve {α : Type} (name : String) (default : α) (read : Input → Option α)
    (input : Option Input) : Except String α :=
  match input with
  | none => .ok default
  | some input =>
    match read input with
    | some value => .ok value
    | none => .error name

/-- The names that are no settings. -/
def unknownNames (named : List (String × Input)) : List String :=
  (named.map (·.1)).filter fun name => !sameName name pageSizeName && !sameName name fieldNameName

/-- The name of a setting that failed, as a list. -/
def failed {α : Type} : Except String α → List String
  | .ok _ => []
  | .error name => [name]

/-- Reads settings.  `start` is what the names of the variables begin with. -/
def read (start : String) (named : List (String × Input)) (environment : List (String × String)) :
    Except Fault Settings :=
  let pageSize := resolve pageSizeName standard.defaultPerPage pageSize?
    (given? start named environment pageSizeName)
  let fieldName := resolve fieldNameName standard.idField fieldName?
    (given? start named environment fieldNameName)
  match pageSize, fieldName, unknownNames named with
  | .ok size, .ok name, [] => .ok ⟨size, name⟩
  | _, _, unknown =>
    .error (.invalidSettings
      ((failed pageSize ++ failed fieldName ++ unknown).mergeSort (fun a b => a ≤ b)))

end Settings

end RecordQuery
