import RecordQuery.Context
import RecordQuery.Proofs.Extrema
import RecordQuery.Proofs.StableSort

/-! # Ordering by a field

Where the values of a field are ordered by keys, arranging sources by the field, in either
direction, is the stable sort by the key of the value (`sortByField_eq`): sources with one key keep
their order, also in descending order. -/

namespace RecordQuery

namespace Arrangement

variable {κ : Type} [LinearOrder κ] {key : Value → κ} {name : String} {docs : List Value}

/-- Sources beside the values of a field. -/
def keyed (name : String) (docs : List Value) : List (Value × Value) :=
  docs.map fun s => (s.fieldOrNull name, s)

theorem zip_eq_keyed (name : String) (docs : List Value) :
    (docs.map (Value.fieldOrNull name)).zip docs = keyed name docs := by
  unfold keyed
  induction docs with
  | nil => rfl
  | cons s docs ih => rw [List.map_cons, List.zip_cons_cons, ih, List.map_cons]

/-- Sorting sources beside their values by a key of the value sorts the sources. -/
theorem map_mergeSort_keyed (descending : Bool) (k : Value → κ) (name : String)
    (docs : List Value) :
    ((keyed name docs).mergeSort (Sorting.byKeyTowards descending fun x => k x.1)).map (·.2) =
      docs.mergeSort (Sorting.byKeyTowards descending fun s => k (s.fieldOrNull name)) := by
  have hdocs : (keyed name docs).map (·.2) = docs := by
    rw [keyed, List.map_map]
    exact List.map_id docs
  rw [List.map_mergeSort, hdocs]
  intro x hx y hy
  obtain ⟨s, -, rfl⟩ := List.mem_map.mp hx
  obtain ⟨t, -, rfl⟩ := List.mem_map.mp hy
  cases descending <;> rfl

theorem compares_keyed (h : Value.OrderedBy key (docs.map (Value.fieldOrNull name))) :
    Sorting.Compares (fun x : Value × Value => key x.1) (fun x y => x.1.lt y.1) (keyed name docs)
      (keyed name docs) := by
  intro x hx y hy
  obtain ⟨s, hs, rfl⟩ := List.mem_map.mp hx
  obtain ⟨t, ht, rfl⟩ := List.mem_map.mp hy
  exact h _ (List.mem_map_of_mem hs) _ (List.mem_map_of_mem ht) .less

variable (hd : ∀ s ∈ docs, s.hasFields = true)
  (h : Value.OrderedBy key (docs.map (Value.fieldOrNull name)))
include hd h

theorem sortByField_eq (descending : Bool) : sortByField (.text name) descending docs = .ok
    (docs.mergeSort (Sorting.byKeyTowards descending fun s => key (s.fieldOrNull name))) := by
  have hsort := Sorting.sortTowards_eq_mergeSort descending (compares_keyed h)
  rw [← zip_eq_keyed] at hsort
  rw [sortByField, Value.fieldsOf_text hd]
  -- the directions are told apart before the sources are taken from their values
  cases descending with
  | false =>
      show (Sorting.sort _ ((docs.map (Value.fieldOrNull name)).zip docs) >>= _) = _
      rw [show Sorting.sort _ _ = _ from hsort, zip_eq_keyed]
      exact congrArg Except.ok (map_mergeSort_keyed false key name docs)
  | true =>
      show (Sorting.sortDescending _ ((docs.map (Value.fieldOrNull name)).zip docs) >>= _) = _
      rw [show Sorting.sortDescending _ _ = _ from hsort, zip_eq_keyed]
      exact congrArg Except.ok (map_mergeSort_keyed true key name docs)

end Arrangement
end RecordQuery
