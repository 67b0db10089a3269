import RecordQuery.Context

/-! # Windows as a drop and a take

Checked options never count from the end of a list, and then a window is what remains when some
elements are dropped and some taken (`window_eq_take`, `window_eq_drop`). -/

namespace RecordQuery

namespace Window

variable {α : Type} (xs : List α)

theorem place_of_nonneg {index : Int} (h : 0 ≤ index) (length : Nat) :
    place length index = min index.toNat length := by
  unfold place
  rw [if_neg (by omega)]

/-- Dropping no more than a bound on the length drops all the same. -/
theorem drop_min {bound : Nat} (h : xs.length ≤ bound) (k : Nat) :
    xs.drop (min k bound) = xs.drop k := by
  by_cases hk : k ≤ bound
  · rw [Nat.min_eq_left hk]
  · rw [Nat.min_eq_right (by omega), List.drop_of_length_le h, List.drop_of_length_le (by omega)]

theorem slice_none {start : Int} (h : 0 ≤ start) : slice xs start none = xs.drop start.toNat := by
  unfold slice
  simp only [place_of_nonneg h]
  rw [List.take_length, drop_min xs (Nat.le_refl _)]

theorem slice_some {start stop : Int} (h : 0 ≤ start) (hs : 0 ≤ stop) :
    slice xs start (some stop) = (xs.drop start.toNat).take (stop.toNat - start.toNat) := by
  have htake : xs.take (min stop.toNat xs.length) = xs.take stop.toNat := by
    rw [List.take_eq_take_iff]
    omega
  unfold slice
  simp only [place_of_nonneg h, place_of_nonneg hs]
  rw [htake, drop_min _ (List.length_take_le' _ _), List.drop_take]

end Window

namespace Context

variable {docs : List Value} {skip : Int}

theorem mem_of_mem_window {limit : Option Int} {s : Value} (h : s ∈ window docs skip limit) :
    s ∈ docs :=
  List.mem_of_mem_take (List.mem_of_mem_drop h)

theorem window_eq_drop (h : 0 ≤ skip) : window docs skip none = docs.drop skip.toNat :=
  Window.slice_none docs h

theorem window_eq_take (h : 0 ≤ skip) {limit : Int} (hl : 0 ≤ limit) :
    window docs skip (some limit) = (docs.drop skip.toNat).take limit.toNat := by
  unfold window
  rw [Option.map_some, Window.slice_some docs h (by omega)]
  congr 1
  omega

/-- A window holds what stands behind the skipped elements and within the limit. -/
theorem mem_window_iff (h : 0 ≤ skip) {limit : Option Int} (hl : ∀ n, limit = some n → 0 ≤ n)
    {s : Value} : s ∈ window docs skip limit ↔
      ∃ i : Nat, skip ≤ i ∧ (∀ n, limit = some n → i < skip + n) ∧ docs[i]? = some s := by
  have hdrop : ∀ i, (docs.drop skip.toNat)[i]? = docs[skip.toNat + i]? := fun i =>
    List.getElem?_drop
  cases limit with
  | none =>
      rw [window_eq_drop h, List.mem_iff_getElem?]
      constructor
      · rintro ⟨i, hi⟩
        exact ⟨skip.toNat + i, by omega, nofun, by rw [← hdrop, hi]⟩
      · rintro ⟨i, hi, -, hs⟩
        refine ⟨i - skip.toNat, ?_⟩
        rw [hdrop, ← hs]
        congr 1
        omega
  | some n =>
      have hn := hl n rfl
      rw [window_eq_take h hn, List.mem_iff_getElem?]
      constructor
      · rintro ⟨i, hi⟩
        rw [List.getElem?_take] at hi
        split at hi
        · refine ⟨skip.toNat + i, by omega, ?_, by rw [← hdrop, hi]⟩
          rintro m ⟨⟩
          omega
        · simp at hi
      · rintro ⟨i, hi, hlt, hs⟩
        have := hlt n rfl
        refine ⟨i - skip.toNat, ?_⟩
        rw [List.getElem?_take, if_pos (by omega), hdrop, ← hs]
        congr 1
        omega

end Context
end RecordQuery
