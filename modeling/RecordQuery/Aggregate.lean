import RecordQuery.Context
import RecordQuery.Value.Arithmetic

/-! # Aggregation

Aggregates look at all matched sources, whatever is skipped or limited, and at the values of one
field of each.

A sum first lays its values out as a grid: as long as all of them are sequences of one length, their
elements take their place.  The elements of the grid are then added from left to right, starting
with the first.  So numbers are added up, sequences of one length are added up through, and
sequences of different lengths are joined. -/

namespace RecordQuery
namespace Context

/-! ### Grouping -/

/-- Sources in groups with their keys, in the order in which keys are met first. -/
abbrev Groups := List (Value × List Value)

/-- Adds a source to the group of its key, in a new group if there is none yet. -/
def addToGroup (key s : Value) : Groups → Groups
  | [] => [(key, [s])]
  | g :: gs => if key.same g.1 then (g.1, g.2 ++ [s]) :: gs else g :: addToGroup key s gs

/-- The key a source is grouped by, null without a grouping field. -/
def groupKey (x : Context) (s : Value) : Except Fault Value :=
  match x.criteria.options.groupingField with
  | some name => if name.truthy then s.field name else .ok .null
  | none => .ok .null

/-- Adds sources to groups one after the other. -/
def groupInto (x : Context) (groups : Groups) : List Value → Except Fault Groups
  | [] => .ok groups
  | s :: rest => do
    let key ← x.groupKey s
    match key.unhashable? with
    | some kind => throw (.unhashable kind)
    | none => x.groupInto (addToGroup key s groups) rest

/-- The matched sources grouped by the first field of the projection. -/
def group (x : Context) : Except Fault Groups := do x.groupInto [] (← x.matched)

/-- The sizes of the groups. -/
def aggregate (x : Context) : Except Fault (List (Value × Nat)) := do
  return (← x.group).map fun g => (g.1, g.2.length)

/-! ### Values of a field -/

/-- Whether a value is not null. -/
def isPresent : Value → Bool
  | .null => false
  | _ => true

/-- The values of a field of the matched sources that are not null. -/
def presentValues (x : Context) (name : Value) : Except Fault (List Value) := do
  return (← Value.fieldsOf name (← x.matched)).filter isPresent

/-- The least value of a field, the first of equal ones. -/
def minimum (x : Context) (name : Value) : Except Fault Value := do
  return (← Value.minimum? (← x.presentValues name)).getD .null

/-- The greatest value of a field, the first of equal ones. -/
def maximum (x : Context) (name : Value) : Except Fault Value := do
  return (← Value.maximum? (← x.presentValues name)).getD .null

/-! ### Sums -/

/-- The elements of a list or a tuple. -/
def row? : Value → Option (List Value)
  | .list items | .tuple items => some items
  | _ => none

/-- The rows of a grid, when all values are sequences of the given length. -/
def rows? (width : Nat) : List Value → Option (List (List Value))
  | [] => some []
  | v :: vs =>
    match row? v with
    | some row => if row.length = width then (rows? width vs).map (row :: ·) else none
    | none => none

/-- The elements of values laid out as a grid, row by row, of at most `depth` further dimensions. -/
def gridElements : Nat → List Value → List Value
  | 0, vs => vs
  | depth + 1, vs =>
    match vs.head?.bind row? with
    | some row =>
      match rows? row.length vs with
      | some rows => gridElements depth rows.flatten
      | none => vs
    | none => vs

/-- How many dimensions a grid has at most beyond the list of values itself. -/
def gridDepth : Nat := 63

/-- Adds values to a first one from left to right. -/
def addAll (total : Value) : List Value → Except Fault Value
  | [] => .ok total
  | v :: vs => do addAll (← total.add v) vs

/-- The sum of the elements of a grid, zero when it has none. -/
def gridSum (vs : List Value) : Except Fault Value :=
  match gridElements gridDepth vs with
  | [] => .ok (.int 0)
  | v :: vs => addAll v vs

/-- The sum of a field. -/
def sum (x : Context) (name : Value) : Except Fault Value := do
  gridSum (← x.presentValues name)

/-- The sum of a field divided by the number of matched sources, null when nothing matches. -/
def average (x : Context) (name : Value) : Except Fault Value := do
  let count ← x.count
  if count = 0 then return .null else (← x.sum name).div (.int count)

/-! ### Distinct values -/

/-- Values met so far: those that may be keys, those that may not, and all in order. -/
structure Seen where
  hashable : List Value
  others : List Value
  values : List Value

/-- Whether a list holds a value of the same kind that is the same. -/
def holdsAlike (v : Value) (vs : List Value) : Bool := vs.any fun w => v.kind == w.kind && v.same w

/-- Meets one more value. -/
def Seen.meet (seen : Seen) (v : Value) : Seen :=
  if v.hashable then
    if holdsAlike v seen.hashable then seen
    else { seen with hashable := seen.hashable ++ [v], values := seen.values ++ [v] }
  else
    if holdsAlike v seen.others then seen
    else { seen with others := seen.others ++ [v], values := seen.values ++ [v] }

/-- The values without those met before, in the order in which they are met first. -/
def distinctValues (vs : List Value) : List Value := (vs.foldl Seen.meet ⟨[], [], []⟩).values

/-- The distinct values of a field, an absent one counting as null. -/
def distinct (x : Context) (name : Value) : Except Fault (List Value) := do
  return distinctValues (← Value.fieldsOf name (← x.matched))

end Context
end RecordQuery
