import RecordQuery.Number.Shortest
import RecordQuery.Text.Integer
import RecordQuery.Text.Quoted
import RecordQuery.Value.Basic

/-! # The text of a value

A value has two texts.  Its `literal` quotes strings and names the type of an identifier, so that
the kind of every part can be read off; it is the text used inside containers.  Its `display` is
the same except that a string or an identifier on its own stands as it is.

An integer that is too long to be written leaves a value that holds it without either text.  Nothing
else does, which is `display_isSome_iff`. -/

namespace RecordQuery
namespace Value

/-- Texts with commas between them. -/
def commaSeparated (texts : List String) : String := ", ".intercalate texts

/-- Elements of a tuple between parentheses; a comma tells a single one from a grouping. -/
def tupleLiteral : List String → String
  | [item] => "(" ++ item ++ ",)"
  | items => "(" ++ commaSeparated items ++ ")"

/-- Elements of a set between braces; the empty set is written as a call. -/
def setLiteral (frozen : Bool) (items : List String) : String :=
  let braces := "\x7b" ++ commaSeparated items ++ "\x7d"
  match frozen, items with
  | false, [] => "set()"
  | false, _ => braces
  | true, [] => "frozenset()"
  | true, _ => "frozenset(" ++ braces ++ ")"

/-- The text of a number. -/
def numberLiteral : Number → Option String
  | .int n => Text.ofInt? n
  | .float x => some x.text

mutual
/-- The text of a value inside a container, unless an integer in it is too long. -/
def literal : Value → Option String
  | .null => some "None"
  | .bool b => some (if b then "True" else "False")
  | .number n => numberLiteral n
  | .text s => some (Text.quoted s)
  | .uuid u => some ("UUID('" ++ u.text ++ "')")
  | .list items => (literals items).map fun texts => "[" ++ commaSeparated texts ++ "]"
  | .tuple items => (literals items).map tupleLiteral
  | .dict entries =>
    (entryLiterals entries).map fun texts => "\x7b" ++ commaSeparated texts ++ "\x7d"
  | .set frozen items => (literals items).map (setLiteral frozen)
  | .arrangement _ => some "<ordering>"
  | .document fields =>
    (entryLiterals fields).map fun texts =>
      "Document(fields=\x7b" ++ commaSeparated texts ++ "\x7d)"
  | .record .. => some "<record>"
termination_by structural v => v

/-- The texts of the elements of a container. -/
def literals : List Value → Option (List String)
  | [] => some []
  | v :: vs => do return (← literal v) :: (← literals vs)
termination_by structural vs => vs

/-- The texts of the entries of a dictionary. -/
def entryLiterals : List (Value × Value) → Option (List String)
  | [] => some []
  | (k, v) :: es => do return ((← literal k) ++ ": " ++ (← literal v)) :: (← entryLiterals es)
termination_by structural es => es
end

/-- The text of a value on its own. -/
def display : Value → Option String
  | .text s => some s
  | .uuid u => some u.text
  | v => v.literal

/-! ### Values that have a text -/

mutual
/-- The integers that the text of a value writes, in order. -/
def integers : Value → List Int
  | .number (.int n) => [n]
  | .list items | .tuple items | .set _ items => itemIntegers items
  | .dict entries | .document entries => entryIntegers entries
  | _ => []
termination_by structural v => v

/-- The integers that the texts of the elements of a container write. -/
def itemIntegers : List Value → List Int
  | [] => []
  | v :: vs => integers v ++ itemIntegers vs
termination_by structural vs => vs

/-- The integers that the texts of the entries of a dictionary write. -/
def entryIntegers : List (Value × Value) → List Int
  | [] => []
  | (k, v) :: es => (integers k ++ integers v) ++ entryIntegers es
termination_by structural es => es
end

/-- Whether no integer in a value is too long to be written. -/
def Writable (v : Value) : Prop := ∀ n ∈ v.integers, n.natAbs < Text.integerBound

instance (v : Value) : Decidable v.Writable :=
  inferInstanceAs (Decidable (∀ n ∈ v.integers, n.natAbs < Text.integerBound))

theorem literal_number_isSome_iff (n : Number) :
    (number n).literal.isSome ↔ (number n).Writable := by
  cases n with
  | float x => exact iff_of_true rfl fun _ h => absurd h List.not_mem_nil
  | int n =>
    have hwritable : (int n).Writable ↔ n.natAbs < Text.integerBound := by
      show (∀ m ∈ [n], m.natAbs < Text.integerBound) ↔ _
      rw [List.forall_mem_singleton]
    rw [hwritable, Option.isSome_iff_exists]
    show (∃ s, Text.ofInt? n = some s) ↔ _
    simp only [Text.ofInt?_eq_some_iff, exists_and_left, exists_eq, and_true]

mutual
theorem literal_isSome_iff (v : Value) : v.literal.isSome ↔ v.Writable := by
  cases v with
  | number n => exact literal_number_isSome_iff n
  | list items | tuple items | set _ items =>
    show (Option.map _ (literals items)).isSome ↔ _
    rw [Option.isSome_map]
    exact literals_isSome_iff items
  | dict entries | document entries =>
    show (Option.map _ (entryLiterals entries)).isSome ↔ _
    rw [Option.isSome_map]
    exact entryLiterals_isSome_iff entries
  | _ => exact iff_of_true rfl fun _ h => absurd h List.not_mem_nil
termination_by structural v

theorem literals_isSome_iff (vs : List Value) :
    (literals vs).isSome ↔ ∀ n ∈ itemIntegers vs, n.natAbs < Text.integerBound := by
  cases vs with
  | nil => exact iff_of_true rfl fun _ h => absurd h List.not_mem_nil
  | cons v vs =>
    show (do return (← literal v) :: (← literals vs) : Option (List String)).isSome ↔
      ∀ n ∈ integers v ++ itemIntegers vs, n.natAbs < Text.integerBound
    rw [List.forall_mem_append, ← literals_isSome_iff vs]
    show _ ↔ v.Writable ∧ _
    rw [← literal_isSome_iff v]
    cases literal v <;> cases literals vs <;> simp
termination_by structural vs

theorem entryLiterals_isSome_iff (es : List (Value × Value)) :
    (entryLiterals es).isSome ↔ ∀ n ∈ entryIntegers es, n.natAbs < Text.integerBound := by
  cases es with
  | nil => exact iff_of_true rfl fun _ h => absurd h List.not_mem_nil
  | cons e es =>
    obtain ⟨k, v⟩ := e
    show (do return ((← literal k) ++ ": " ++ (← literal v)) :: (← entryLiterals es) :
      Option (List String)).isSome ↔
      ∀ n ∈ (integers k ++ integers v) ++ entryIntegers es, n.natAbs < Text.integerBound
    rw [List.forall_mem_append, List.forall_mem_append, ← entryLiterals_isSome_iff es]
    show _ ↔ (k.Writable ∧ v.Writable) ∧ _
    rw [← literal_isSome_iff k, ← literal_isSome_iff v]
    cases literal k <;> cases literal v <;> cases entryLiterals es <;> simp
termination_by structural es
end

/-- A value has a text just when no integer in it is too long. -/
theorem display_isSome_iff (v : Value) : v.display.isSome ↔ v.Writable := by
  cases v with
  | text s => exact iff_of_true rfl fun _ h => absurd h List.not_mem_nil
  | uuid u => exact iff_of_true rfl fun _ h => absurd h List.not_mem_nil
  | _ => exact literal_isSome_iff _

end Value
end RecordQuery
