import Mathlib.Algebra.BigOperators.Group.List.Basic
import Mathlib.Algebra.Ring.Int.Defs
import RecordQuery.Proofs.DistinctValues

/-! # Sums of integers

Integers and truth values are no rows of a grid, so a sum of them adds the values themselves, and
integers are added exactly.  `gridSum_integers` says that the sum stands for the sum of the integers
that the values stand for, however many and however large.  A sum of a single truth value is that
truth value, so the statement is about what the sum stands for and not about its kind. -/

namespace RecordQuery
namespace Value

/-- Whether a value is an integer or a truth value. -/
def IsInteger (v : Value) : Prop := v.kind = .int ∨ v.kind = .bool

/-- The integer a value stands for, zero where it stands for none. -/
def toInt (v : Value) : Int :=
  match v.number? with
  | some (.int n) => n
  | _ => 0

theorem number?_of_isInteger {v : Value} (h : v.IsInteger) :
    v.number? = some (.int v.toInt) := by
  cases v with
  | bool b => rfl
  | number n =>
      cases n with
      | int n => rfl
      | float x => rcases h with h | h <;> exact nomatch h
  | set frozen items => cases frozen <;> rcases h with h | h <;> exact nomatch h
  | _ => rcases h with h | h <;> exact nomatch h

theorem add_of_number? {v w : Value} {m n : Int} (hv : v.number? = some (.int m))
    (hw : w.number? = some (.int n)) : v.add w = .ok (.int (m + n)) := by
  unfold add onNumbers
  rw [hv, hw]
  rfl

theorem row?_of_isInteger {v : Value} (h : v.IsInteger) : Context.row? v = none := by
  cases v with
  | list items => rcases h with h | h <;> exact nomatch h
  | tuple items => rcases h with h | h <;> exact nomatch h
  | _ => rfl

end Value

namespace Context

variable {vs : List Value}

/-- Adding integers to an integer. -/
theorem addAll_integers {total : Value} {n : Int} (ht : total.number? = some (.int n))
    (h : ∀ v ∈ vs, v.IsInteger) :
    ∃ s, addAll total vs = .ok s ∧ s.number? = some (.int (n + (vs.map Value.toInt).sum)) := by
  induction vs generalizing total n with
  | nil => exact ⟨total, rfl, by simpa using ht⟩
  | cons v vs ih =>
      rw [List.forall_mem_cons] at h
      have hadded : (Value.int (n + v.toInt)).number? = some (.int (n + v.toInt)) := rfl
      obtain ⟨s, hs, hn⟩ := ih hadded h.2
      refine ⟨s, ?_, ?_⟩
      · rw [addAll, Value.add_of_number? ht (Value.number?_of_isInteger h.1)]
        exact hs
      · rw [hn, List.map_cons, List.sum_cons, Int.add_assoc]

theorem gridElements_integers (h : ∀ v ∈ vs, v.IsInteger) (depth : Nat) :
    gridElements depth vs = vs := by
  cases depth with
  | zero => rfl
  | succ depth =>
      cases vs with
      | nil => rfl
      | cons v vs =>
          rw [List.forall_mem_cons] at h
          rw [gridElements, List.head?_cons, Option.bind_some, Value.row?_of_isInteger h.1]

theorem gridSum_integers (h : ∀ v ∈ vs, v.IsInteger) :
    ∃ s, gridSum vs = .ok s ∧ s.number? = some (.int (vs.map Value.toInt).sum) := by
  unfold gridSum
  rw [gridElements_integers h]
  cases vs with
  | nil => exact ⟨.int 0, rfl, rfl⟩
  | cons v vs =>
      rw [List.forall_mem_cons] at h
      exact addAll_integers (Value.number?_of_isInteger h.1) h.2

theorem sum_eq {x : Context} (hc : x.criteria.WellPosed) (name : String) :
    x.sum (.text name) = gridSum (x.criteria.presentOf name) := by
  unfold sum
  rw [presentValues_eq hc]
  rfl

end Context
end RecordQuery
