import Mathlib.Data.List.Pairwise
import RecordQuery.Value.Collection
import RecordQuery.Value.Equivalence

/-! # Dictionaries with distinct keys

A dictionary stores each key once.  `Dict.Distinct` says so of a list of entries, `wellKeyed` of
every dictionary, document and record within a value.  Inserting keeps it (`distinct_insert`,
`distinct_merge`), and where it holds a look-up depends on the entries alone and not on their order:
every entry is what its key gives (`get?_of_mem`), so dictionaries that are the same give the same
under keys that are the same (`get?_congr`). -/

namespace RecordQuery

/-- Whether two optional values are the same: both absent, or both present and the same. -/
abbrev SameOption : Option Value → Option Value → Prop := Option.Rel fun v w => v.same w = true

namespace Dict

/-- Whether no two entries have the same key. -/
def Distinct (d : Dict) : Prop := d.Pairwise fun e f => e.1.same f.1 = false

instance (d : Dict) : Decidable (Distinct d) := inferInstanceAs (Decidable (List.Pairwise _ d))

/-! ### Look-up -/

theorem get?_cons (e : Value × Value) (d : Dict) (key : Value) :
    get? (e :: d) key = if key.same e.1 then some e.2 else get? d key := by
  unfold get?
  rw [List.find?_cons]
  cases key.same e.1 <;> rfl

theorem get?_eq_none_iff {d : Dict} {key : Value} :
    get? d key = none ↔ ∀ e ∈ d, key.same e.1 = false := by
  unfold get?
  simp

theorem exists_of_get? {d : Dict} {key v : Value} (h : get? d key = some v) :
    ∃ e ∈ d, key.same e.1 = true ∧ e.2 = v := by
  unfold get? at h
  obtain ⟨e, he, rfl⟩ := Option.map_eq_some_iff.mp h
  exact ⟨e, List.mem_of_find?_eq_some he, by simpa using List.find?_some he, rfl⟩

/-- An entry is what its key gives. -/
theorem get?_of_mem {d : Dict} (hd : Distinct d) {e : Value × Value} (he : e ∈ d) {key : Value}
    (hk : key.same e.1 = true) : get? d key = some e.2 := by
  induction d with
  | nil => simp at he
  | cons f d ih =>
      rw [Distinct, List.pairwise_cons] at hd
      rw [get?_cons]
      rcases List.mem_cons.mp he with rfl | he
      · rw [if_pos hk]
      · have hf : key.same f.1 = false := by
          rw [Bool.eq_false_iff]
          intro h
          have := Value.same_trans (Value.same_symm h) hk
          rw [hd.1 e he] at this
          exact Bool.false_ne_true this
        rw [hf, if_neg Bool.false_ne_true]
        exact ih hd.2 he

theorem contains_eq_false_iff {d : Dict} {key : Value} :
    contains d key = false ↔ ∀ e ∈ d, key.same e.1 = false := by
  unfold contains
  simp

/-- Dictionaries that are the same hold the same under keys that are the same. -/
theorem get?_congr {d e : Dict} (hd : Distinct d) (he : Distinct e) (h : Covers Value.SameEntry d e)
    {k l : Value} (hkl : k.same l = true) : SameOption (get? d k) (get? e l) := by
  cases hv : get? d k with
  | some v =>
      obtain ⟨x, hx, hkx, rfl⟩ := exists_of_get? hv
      obtain ⟨y, hy, hxy⟩ := h.left x hx
      have hly := Value.same_trans (Value.same_symm hkl) (Value.same_trans hkx hxy.1)
      rw [get?_of_mem he hy hly]
      exact .some hxy.2
  | none =>
      cases hw : get? e l with
      | none => exact .none
      | some w =>
          obtain ⟨y, hy, hly, rfl⟩ := exists_of_get? hw
          obtain ⟨x, hx, hxy⟩ := h.right y hy
          have hkx := Value.same_trans hkl (Value.same_trans hly (Value.same_symm hxy.1))
          rw [get?_of_mem hd hx hkx] at hv
          simp at hv

/-! ### Insertion -/

/-- The entries under keys other than a given one. -/
def erase (d : Dict) (key : Value) : Dict := d.filter fun e => !key.same e.1

theorem get?_insert_self (d : Dict) (key v : Value) : get? (insert d key v) key = some v := by
  induction d with
  | nil => rw [insert, get?_cons, if_pos (Value.same_refl key)]
  | cons e d ih =>
      rw [insert]
      split
      · rename_i he
        rw [get?_cons, if_pos he]
      · rename_i he
        rw [get?_cons, if_neg he, ih]

theorem insert_of_not_contains {d : Dict} {key : Value} (h : contains d key = false)
    (v : Value) : insert d key v = d ++ [(key, v)] := by
  induction d with
  | nil => rfl
  | cons e d ih =>
      rw [contains_eq_false_iff, List.forall_mem_cons] at h
      rw [insert, if_neg (by simp [h.1]), ih (contains_eq_false_iff.mpr h.2)]
      rfl

theorem erase_of_not_contains {d : Dict} {key : Value} (h : contains d key = false) :
    erase d key = d := by
  rw [contains_eq_false_iff] at h
  exact List.filter_eq_self.mpr fun e he => by simp [h e he]

theorem key_of_mem_insert {d : Dict} {key v : Value} {e : Value × Value}
    (he : e ∈ insert d key v) : (∃ f ∈ d, f.1 = e.1) ∨ e.1 = key := by
  induction d with
  | nil => exact .inr (by simp [insert] at he; rw [he])
  | cons f d ih =>
      rw [insert] at he
      split at he
      · rcases List.mem_cons.mp he with rfl | he
        · exact .inl ⟨f, by simp, rfl⟩
        · exact .inl ⟨e, List.mem_cons_of_mem _ he, rfl⟩
      · rcases List.mem_cons.mp he with rfl | he
        · exact .inl ⟨e, by simp, rfl⟩
        · rcases ih he with ⟨g, hg, hge⟩ | h
          · exact .inl ⟨g, List.mem_cons_of_mem _ hg, hge⟩
          · exact .inr h

theorem distinct_insert {d : Dict} (hd : Distinct d) (key v : Value) :
    Distinct (insert d key v) := by
  induction d with
  | nil => exact List.pairwise_singleton _ _
  | cons e d ih =>
      have hd' := List.pairwise_cons.mp hd
      rw [insert]
      split
      · exact List.pairwise_cons.mpr hd'
      · rename_i hk
        refine List.pairwise_cons.mpr ⟨?_, ih hd'.2⟩
        intro f hf
        rcases key_of_mem_insert hf with ⟨g, hg, hgf⟩ | hfk
        · rw [← hgf]; exact hd'.1 g hg
        · rw [hfk, Bool.eq_false_iff]
          exact fun h => hk (Value.same_symm h)

theorem distinct_merge {d : Dict} (hd : Distinct d) (e : Dict) : Distinct (merge d e) := by
  unfold merge
  induction e generalizing d with
  | nil => exact hd
  | cons x e ih => exact ih (distinct_insert hd x.1 x.2)

theorem distinct_ofEntries (entries : List (Value × Value)) : Distinct (ofEntries entries) :=
  distinct_merge List.Pairwise.nil entries

end Dict

namespace Value

mutual
/-- Whether every dictionary, document and record within a value has distinct keys. -/
def wellKeyed : Value → Bool
  | .list items => wellKeyedItems items
  | .tuple items => wellKeyedItems items
  | .set _ items => wellKeyedItems items
  | .dict entries => decide (Dict.Distinct entries) && wellKeyedEntries entries
  | .document entries => decide (Dict.Distinct entries) && wellKeyedEntries entries
  | .record _ _ entries => decide (Dict.Distinct entries) && wellKeyedEntries entries
  | _ => true
termination_by structural v => v

/-- Whether all of some values are well keyed. -/
def wellKeyedItems : List Value → Bool
  | [] => true
  | v :: vs => wellKeyed v && wellKeyedItems vs
termination_by structural vs => vs

/-- Whether the keys and values of some entries are well keyed. -/
def wellKeyedEntries : List (Value × Value) → Bool
  | [] => true
  | (k, v) :: es => (wellKeyed k && wellKeyed v) && wellKeyedEntries es
termination_by structural es => es
end

theorem wellKeyedEntries_iff {es : Dict} :
    wellKeyedEntries es = true ↔ ∀ e ∈ es, e.1.wellKeyed = true ∧ e.2.wellKeyed = true := by
  induction es with
  | nil => simp [wellKeyedEntries]
  | cons e es ih =>
      rw [List.forall_mem_cons, ← ih]
      simp only [wellKeyedEntries, Bool.and_eq_true]

theorem wellKeyed_dict_iff {es : Dict} : (Value.dict es).wellKeyed = true ↔
    Dict.Distinct es ∧ ∀ e ∈ es, e.1.wellKeyed = true ∧ e.2.wellKeyed = true := by
  rw [← wellKeyedEntries_iff, ← decide_eq_true_iff (p := Dict.Distinct es), ← Bool.and_eq_true]
  rfl

theorem wellKeyed_document {es : Dict} :
    (Value.document es).wellKeyed = (Value.dict es).wellKeyed := rfl

/-- What a well keyed dictionary holds is well keyed. -/
theorem wellKeyed_get? {es : Dict} (h : (Value.dict es).wellKeyed = true) {key v : Value}
    (hv : Dict.get? es key = some v) : v.wellKeyed = true := by
  obtain ⟨e, he, -, rfl⟩ := Dict.exists_of_get? hv
  exact ((wellKeyed_dict_iff.mp h).2 e he).2

end Value
end RecordQuery
