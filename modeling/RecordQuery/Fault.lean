import RecordQuery.Value.Text

/-! # Faults and reports

A fault is the cause of a failure together with the values that took part in it.  `Fault.message`
is the only place that words one.  Wording a fault may itself fail: values that hold an integer too
long to be written have no text, and then neither has the fault.

An operation that reports what it does returns its reports beside its outcome, so that reports made
before a failure are kept.  A report is worded before it is made, and one that has no text is not
made: this is the failure of the operation, whatever its outcome would have been. -/

namespace RecordQuery

/-! ### Causes of failure -/

/-- The comparisons that order values. -/
inductive Comparison where
  | less
  | greater
  deriving DecidableEq, Repr

/-- How a comparison is written. -/
def Comparison.symbol : Comparison → String
  | .less => "<"
  | .greater => ">"

/-- The arithmetic operations on values. -/
inductive Operation where
  | add
  | sub
  | mul
  | div
  deriving DecidableEq, Repr

/-- How an operation is written. -/
def Operation.symbol : Operation → String
  | .add => "+"
  | .sub => "-"
  | .mul => "*"
  | .div => "/"

/-- The cause of a failure. -/
inductive Fault where
  /-- A look-up by identity found no document. -/
  | notFound (explanation : String) (ids collection : Value)
  /-- Options or paging hints are invalid. -/
  | invalidOptions (explanation : String) (option value : Value)
  /-- A failure without details is explained by something other than a text. -/
  | explanationNotText (kind : Kind)
  /-- Settings are invalid: the names of the fields that failed, in order. -/
  | invalidSettings (fields : List String)
  | unhashable (kind : Kind)
  | missingAttribute (kind : Kind) (member : String)
  | notIterable (kind : Kind)
  | noLength (kind : Kind)
  | notComparable (comparison : Comparison) (left right : Kind)
  | unsupportedOperands (operation : Operation) (left right : Kind)
  /-- A sequence meets something it cannot be joined with. -/
  | cannotConcatenate (sequence other : Kind)
  /-- A sequence is repeated by something that is no integer. -/
  | cannotRepeat (count : Kind)
  /-- A sequence is repeated more often than an index can count. -/
  | repetitionTooLarge
  /-- A repeated text is longer than an index can count. -/
  | textTooLong
  /-- A repeated sequence is longer than memory has room for. -/
  | outOfMemory
  /-- An integer has too many digits to be written. -/
  | integerTooLong
  /-- A named argument of a call names a parameter that the call has a value for already. -/
  | repeatedArgument (call name : String)
  /-- A list of names to be joined holds something else at an index. -/
  | nameNotText (index : Nat) (kind : Kind)
  /-- An element that should be a pair of key and value is no sequence. -/
  | entryNotSequence (index : Nat)
  /-- An element that should be a pair of key and value has another length. -/
  | entryLength (index length : Nat)
  | arithmetic (e : ArithmeticError)
  deriving Repr

/-! ### Wording -/

namespace Fault

/-- An explanation with its details in parentheses. -/
def withDetails (explanation : String) : List String → String
  | [] => explanation
  | details => explanation ++ " (" ++ ", ".intercalate details ++ ")"

/-- A detail, left out when its value is null; none when the value has no text. -/
def detail (name : String) (value : Value) (render : Value → Option String) :
    Option (List String) :=
  match value with
  | .null => some []
  | v => (render v).map fun text => [name ++ "=" ++ text]

/-- The details of a failed look-up. -/
def lookupDetails (ids collection : Value) : Option (List String) := do
  return (← detail "ids" ids Value.display) ++ (← detail "collection" collection Value.display)

/-- The details of an invalid option. -/
def optionDetails (option value : Value) : Option (List String) := do
  return (← detail "option" option Value.display) ++ (← detail "value" value Value.literal)

/-- The wording of a fault, unless a value that it shows has no text. -/
def message : Fault → Option String
  | .notFound explanation ids collection =>
    (lookupDetails ids collection).map (withDetails explanation)
  | .invalidOptions explanation option value =>
    (optionDetails option value).map (withDetails explanation)
  | .explanationNotText kind =>
    some ("__str__ returned non-string (type " ++ kind.name ++ ")")
  | .invalidSettings fields => some ("invalid settings: " ++ ", ".intercalate fields)
  | .unhashable kind => some ("unhashable type: '" ++ kind.name ++ "'")
  | .missingAttribute kind member =>
    some ("'" ++ kind.name ++ "' object has no attribute '" ++ member ++ "'")
  | .notIterable kind => some ("'" ++ kind.name ++ "' object is not iterable")
  | .noLength kind => some ("object of type '" ++ kind.name ++ "' has no len()")
  | .notComparable comparison left right =>
    some ("'" ++ comparison.symbol ++ "' not supported between instances of '" ++ left.name ++
      "' and '" ++ right.name ++ "'")
  | .unsupportedOperands operation left right =>
    some ("unsupported operand type(s) for " ++ operation.symbol ++ ": '" ++ left.name ++
      "' and '" ++ right.name ++ "'")
  | .cannotConcatenate sequence other =>
    some ("can only concatenate " ++ sequence.name ++ " (not \"" ++ other.name ++ "\") to " ++
      sequence.name)
  | .cannotRepeat count =>
    some ("can't multiply sequence by non-int of type '" ++ count.name ++ "'")
  | .repetitionTooLarge => some "cannot fit 'int' into an index-sized integer"
  | .textTooLong => some "repeated string is too long"
  | .outOfMemory => some ""
  | .integerTooLong =>
    some ("Exceeds the limit (" ++ Nat.repr Text.maxDigits ++ " digits) for integer string " ++
      "conversion; use sys.set_int_max_str_digits() to increase the limit")
  | .repeatedArgument call name =>
    some (call ++ "() got multiple values for argument '" ++ name ++ "'")
  | .nameNotText index kind =>
    some ("sequence item " ++ Nat.repr index ++ ": expected str instance, " ++ kind.name ++
      " found")
  | .entryNotSequence index =>
    some ("cannot convert dictionary update sequence element #" ++ Nat.repr index ++
      " to a sequence")
  | .entryLength index length =>
    some ("dictionary update sequence element #" ++ Nat.repr index ++ " has length " ++
      Nat.repr length ++ "; 2 is required")
  | .arithmetic e => some e.message

/-- A fault with an explanation that may be any value.  Beside details every explanation is shown as
a text; on its own it must be one. -/
def explainedBy (explanation : Value) (details : Option (List String)) (fault : String → Fault) :
    Fault :=
  match explanation, details with
  | .text s, _ => fault s
  | _, none => .integerTooLong
  | v, some [] => .explanationNotText v.kind
  | v, some (_ :: _) => match v.display with
    | some s => fault s
    | none => .integerTooLong

/-- A failed look-up, explained by any value. -/
def lookupFailure (explanation ids collection : Value) : Fault :=
  explainedBy explanation (lookupDetails ids collection) (.notFound · ids collection)

/-- An invalid option, explained by any value. -/
def optionFailure (explanation option value : Value) : Fault :=
  explainedBy explanation (optionDetails option value) (.invalidOptions · option value)

end Fault

/-! ### Reports -/

/-- How much a report matters. -/
inductive Log.Level where
  | debug
  | error
  deriving DecidableEq, Repr

/-- The name of a level. -/
def Log.Level.name : Log.Level → String
  | .debug => "DEBUG"
  | .error => "ERROR"

/-- One report. -/
structure Log.Entry where
  level : Log.Level
  message : String
  deriving DecidableEq, Repr

/-- An outcome with the reports made on the way to it. -/
structure Logged (α : Type) where
  log : List Log.Entry
  outcome : Except Fault α

namespace Logged

/-- An outcome without reports. -/
def silent {α : Type} (outcome : Except Fault α) : Logged α := ⟨[], outcome⟩

/-- An outcome with one report, unless the report has no text. -/
def report {α : Type} (level : Log.Level) (message : Option String) (outcome : Except Fault α) :
    Logged α :=
  match message with
  | some message => ⟨[⟨level, message⟩], outcome⟩
  | none => .silent (.error .integerTooLong)

/-- Continues with a result; reports come in the order in which they are made. -/
def andThen {α β : Type} (x : Logged α) (next : α → Logged β) : Logged β :=
  match x.outcome with
  | .ok a => ⟨x.log ++ (next a).log, (next a).outcome⟩
  | .error e => ⟨x.log, .error e⟩

/-- Changes the result. -/
def map {α β : Type} (f : α → β) (x : Logged α) : Logged β := ⟨x.log, x.outcome.map f⟩

end Logged
end RecordQuery
