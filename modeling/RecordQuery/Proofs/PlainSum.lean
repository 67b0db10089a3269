import RecordQuery.Proofs.IntegerSums
import RecordQuery.Proofs.Reachable

/-! # Sums and the plain reduction

`Context.plainSum` adds values from left to right as they are.  A sum does the same with the
elements of the grid that the values make, so it is the plain sum unless the values are rows:
sequences of one length, of which there is at least one.

When they are rows, the two never agree.  Adding keeps the depth to which sequences are nested
(`Value.depth_add`), and the elements of rows are nested less deeply than the rows
(`depths_gridElements_lt`).  Equal values have one depth, so what a sum of rows comes to is not even
equal to the plain sum.  This is `sum_eq_plainSum_iff`. -/

namespace RecordQuery

/-! ### Depth -/

namespace Value

mutual
/-- How deep lists and tuples are nested in a value: not at all in one that is neither. -/
def depth : Value → Nat
  | .list items => depths items + 1
  | .tuple items => depths items + 1
  | _ => 0
termination_by structural v => v

/-- The greatest depth of some values. -/
def depths : List Value → Nat
  | [] => 0
  | v :: vs => max (depth v) (depths vs)
termination_by structural vs => vs
end

theorem depths_append (vs ws : List Value) :
    depths (vs ++ ws) = max (depths vs) (depths ws) := by
  induction vs with
  | nil => exact (Nat.zero_max _).symm
  | cons v vs ih =>
      show max (depth v) (depths (vs ++ ws)) = max (max (depth v) (depths vs)) (depths ws)
      rw [ih, Nat.max_assoc]

theorem depth_le_depths {v : Value} {vs : List Value} (h : v ∈ vs) : v.depth ≤ depths vs := by
  induction vs with
  | nil => exact nomatch h
  | cons w vs ih =>
      show v.depth ≤ max w.depth (depths vs)
      rcases List.mem_cons.mp h with rfl | h
      · exact Nat.le_max_left _ _
      · exact Nat.le_trans (ih h) (Nat.le_max_right _ _)

theorem depths_lt {vs : List Value} {bound : Nat} (hb : 0 < bound)
    (h : ∀ v ∈ vs, v.depth < bound) : depths vs < bound := by
  induction vs with
  | nil => exact hb
  | cons v vs ih =>
      rw [List.forall_mem_cons] at h
      exact Nat.max_lt.mpr ⟨h.1, ih h.2⟩

theorem depth_of_number? {v : Value} {n : Number} (h : v.number? = some n) : v.depth = 0 := by
  cases v with
  | bool b => rfl
  | number n => rfl
  | _ => exact nomatch h

theorem depth_of_row? {v : Value} {row : List Value} (h : Context.row? v = some row) :
    v.depth = depths row + 1 := by
  cases v with
  | list items =>
      cases h
      rfl
  | tuple items =>
      cases h
      rfl
  | _ => exact nomatch h

theorem depths_of_sameItems {vs ws : List Value}
    (h : ∀ v ∈ vs, ∀ w, v.same w = true → v.depth = w.depth) (hs : sameItems vs ws = true) :
    depths vs = depths ws := by
  induction vs generalizing ws with
  | nil =>
      cases ws with
      | nil => rfl
      | cons w ws => exact absurd hs Bool.false_ne_true
  | cons v vs ih =>
      cases ws with
      | nil => exact absurd hs Bool.false_ne_true
      | cons w ws =>
          have hs := Bool.and_eq_true_iff.mp hs
          rw [List.forall_mem_cons] at h
          show max v.depth (depths vs) = max w.depth (depths ws)
          rw [h.1 w hs.1, ih h.2 hs.2]

/-- Equal values have one depth. -/
theorem depth_of_same {v w : Value} (h : v.same w = true) : v.depth = w.depth := by
  induction v using induction generalizing w with
  | null =>
      obtain rfl := same_null_iff.mp h
      rfl
  | bool b =>
      obtain ⟨n, hw, -⟩ := same_bool_iff.mp h
      exact (depth_of_number? hw).symm
  | number m =>
      obtain ⟨n, hw, -⟩ := same_number_iff.mp h
      exact (depth_of_number? hw).symm
  | text s =>
      obtain rfl := same_text_iff.mp h
      rfl
  | uuid u =>
      obtain rfl := same_uuid_iff.mp h
      rfl
  | list xs ih =>
      obtain ⟨ys, rfl, hs⟩ := same_list_iff.mp h
      exact congrArg (· + 1) (depths_of_sameItems (fun x hx y => ih x hx) hs)
  | tuple xs ih =>
      obtain ⟨ys, rfl, hs⟩ := same_tuple_iff.mp h
      exact congrArg (· + 1) (depths_of_sameItems (fun x hx y => ih x hx) hs)
  | dict es ih =>
      obtain ⟨fs, rfl, -⟩ := same_dict_iff.mp h
      rfl
  | document es ih =>
      obtain ⟨fs, rfl, -⟩ := same_document_iff.mp h
      rfl
  | set frozen xs ih =>
      obtain ⟨other, ys, rfl, -⟩ := same_set_iff.mp h
      rfl
  | arrangement a =>
      obtain ⟨b, rfl, -⟩ := same_arrangement_iff.mp h
      rfl
  | record i n es ih =>
      obtain ⟨m, fs, rfl⟩ := same_record_iff.mp h
      rfl

/-! ### Depth under addition -/

theorem depth_join {v w total : Value} (h : v.join w = .ok total) :
    total.depth = max v.depth w.depth := by
  unfold join at h
  split at h
  · cases h
    rfl
  · cases h
    show depths (_ ++ _) + 1 = max (depths _ + 1) (depths _ + 1)
    rw [depths_append, Nat.add_max_add_right]
  · cases h
    show depths (_ ++ _) + 1 = max (depths _ + 1) (depths _ + 1)
    rw [depths_append, Nat.add_max_add_right]
  all_goals exact nomatch h

theorem depth_ofArithmetic {r : Except ArithmeticError Number} {total : Value}
    (h : ofArithmetic r = .ok total) : total.depth = 0 := by
  unfold ofArithmetic at h
  split at h
  · cases h
    rfl
  · exact nomatch h

/-- A sum is nested as deep as the deeper one of what is added. -/
theorem depth_add {v w total : Value} (h : v.add w = .ok total) :
    total.depth = max v.depth w.depth := by
  unfold add onNumbers at h
  split at h
  · rename_i hv hw
    rw [depth_ofArithmetic h, depth_of_number? hv, depth_of_number? hw]
    rfl
  · exact depth_join h

end Value

/-! ### Grids -/

namespace Context

/-- The values added from left to right, starting with the first, and zero without any. -/
def plainSum : List Value → Except Fault Value
  | [] => .ok (.int 0)
  | v :: vs => addAll v vs

/-- Whether values are the rows of a grid: there are some, and all are sequences of one length. -/
def AreRows (vs : List Value) : Prop :=
  vs ≠ [] ∧ ∃ width, ∀ v ∈ vs, ∃ row, row? v = some row ∧ row.length = width

theorem gridSum_eq (vs : List Value) : gridSum vs = plainSum (gridElements gridDepth vs) := by
  unfold gridSum
  cases gridElements gridDepth vs <;> rfl

theorem depth_addAll {first total : Value} {vs : List Value} (h : addAll first vs = .ok total) :
    total.depth = max first.depth (Value.depths vs) := by
  induction vs generalizing first with
  | nil =>
      cases h
      exact (Nat.max_zero _).symm
  | cons v vs ih =>
      obtain ⟨sum, hsum, h⟩ := exists_of_bind_eq_ok h
      show total.depth = max first.depth (max v.depth (Value.depths vs))
      rw [ih h, Value.depth_add hsum, Nat.max_assoc]

theorem depth_plainSum {vs : List Value} {total : Value} (h : plainSum vs = .ok total) :
    total.depth = Value.depths vs := by
  cases vs with
  | nil =>
      cases h
      rfl
  | cons v vs => exact depth_addAll h

theorem exists_rows_iff {width : Nat} {vs : List Value} :
    (∃ rows, rows? width vs = some rows) ↔
      ∀ v ∈ vs, ∃ row, row? v = some row ∧ row.length = width := by
  induction vs with
  | nil => exact iff_of_true ⟨[], rfl⟩ nofun
  | cons v vs ih =>
      rw [List.forall_mem_cons, ← ih, rows?]
      cases row? v with
      | none => simp
      | some row => by_cases hlength : row.length = width <;> simp [hlength]

/-- What stands in rows stands in the sequences that are taken for them. -/
theorem exists_row_of_mem {width : Nat} {vs : List Value} {rows : List (List Value)}
    (h : rows? width vs = some rows) {u : Value} (hu : u ∈ rows.flatten) :
    ∃ v ∈ vs, ∃ row, row? v = some row ∧ u ∈ row := by
  induction vs generalizing rows with
  | nil =>
      cases h
      exact nomatch hu
  | cons v vs ih =>
      rw [rows?] at h
      cases hrow : row? v with
      | none =>
          rw [hrow] at h
          exact nomatch h
      | some row =>
          simp only [hrow] at h
          split at h
          · obtain ⟨rest, hrest, rfl⟩ := Option.map_eq_some_iff.mp h
            rw [List.flatten_cons, List.mem_append] at hu
            rcases hu with hu | hu
            · exact ⟨v, List.mem_cons_self, row, hrow, hu⟩
            · obtain ⟨w, hw, found⟩ := ih hrest hu
              exact ⟨w, List.mem_cons_of_mem v hw, found⟩
          · exact nomatch h

/-- Values that are rows are replaced by their elements, and other values stay. -/
theorem gridElements_succ (depth : Nat) (vs : List Value) :
    (AreRows vs ∧ ∃ width rows, rows? width vs = some rows ∧
      gridElements (depth + 1) vs = gridElements depth rows.flatten) ∨
    (¬AreRows vs ∧ gridElements (depth + 1) vs = vs) := by
  rw [gridElements]
  cases vs with
  | nil => exact .inr ⟨fun h => h.1 rfl, rfl⟩
  | cons v vs =>
      rw [List.head?_cons, Option.bind_some]
      cases hrow : row? v with
      | none =>
          refine .inr ⟨?_, rfl⟩
          rintro ⟨-, width, hall⟩
          obtain ⟨row, hv, -⟩ := hall v List.mem_cons_self
          rw [hrow] at hv
          cases hv
      | some row =>
          cases hrows : rows? row.length (v :: vs) with
          | none =>
              refine .inr ⟨?_, by simp only [hrows]⟩
              rintro ⟨-, width, hall⟩
              obtain ⟨other, hv, rfl⟩ := hall v List.mem_cons_self
              rw [hrow] at hv
              cases hv
              obtain ⟨rows, hsome⟩ := exists_rows_iff.mpr hall
              rw [hrows] at hsome
              cases hsome
          | some rows =>
              have hvs : AreRows (v :: vs) :=
                ⟨List.cons_ne_nil v vs, _, exists_rows_iff.mp ⟨rows, hrows⟩⟩
              exact .inl ⟨hvs, _, rows, hrows, by simp only [hrows]⟩

/-- The elements of rows are nested less deeply than the rows are. -/
theorem depths_flatten_lt {width : Nat} {vs : List Value} {rows : List (List Value)}
    (hvs : AreRows vs) (h : rows? width vs = some rows) :
    Value.depths rows.flatten < Value.depths vs := by
  have hlt : ∀ v ∈ vs, ∀ row, row? v = some row → Value.depths row < Value.depths vs := by
    intro v hv row hrow
    have hle := Value.depth_le_depths hv
    rw [Value.depth_of_row? hrow] at hle
    exact hle
  obtain ⟨hne, _, hall⟩ := hvs
  obtain ⟨v, hv⟩ := List.exists_mem_of_ne_nil vs hne
  obtain ⟨row, hrow, -⟩ := hall v hv
  refine Value.depths_lt (Nat.zero_lt_of_lt (hlt v hv row hrow)) fun u hu => ?_
  obtain ⟨w, hw, row, hrow, hmem⟩ := exists_row_of_mem h hu
  exact Nat.lt_of_le_of_lt (Value.depth_le_depths hmem) (hlt w hw row hrow)

theorem depths_gridElements_le (depth : Nat) (vs : List Value) :
    Value.depths (gridElements depth vs) ≤ Value.depths vs := by
  induction depth generalizing vs with
  | zero => exact Nat.le_refl _
  | succ depth ih =>
      rcases gridElements_succ depth vs with ⟨hvs, width, rows, hrows, helements⟩ | ⟨-, helements⟩
      · rw [helements]
        exact Nat.le_trans (ih _) (Nat.le_of_lt (depths_flatten_lt hvs hrows))
      · rw [helements]

theorem depths_gridElements_lt (depth : Nat) {vs : List Value} (hvs : AreRows vs) :
    Value.depths (gridElements (depth + 1) vs) < Value.depths vs := by
  rcases gridElements_succ depth vs with ⟨-, width, rows, hrows, helements⟩ | ⟨hnot, -⟩
  · rw [helements]
    exact Nat.lt_of_le_of_lt (depths_gridElements_le depth _) (depths_flatten_lt hvs hrows)
  · exact absurd hvs hnot

theorem gridElements_of_not_rows {vs : List Value} (hvs : ¬AreRows vs) (depth : Nat) :
    gridElements (depth + 1) vs = vs := by
  rcases gridElements_succ depth vs with ⟨hrows, -⟩ | ⟨-, helements⟩
  · exact absurd hrows hvs
  · exact helements

/-! ### Sums -/

theorem gridSum_of_not_rows {vs : List Value} (hvs : ¬AreRows vs) : gridSum vs = plainSum vs := by
  rw [gridSum_eq]
  exact congrArg plainSum (gridElements_of_not_rows hvs _)

/-- What the elements of rows add up to is not equal to what the rows add up to. -/
theorem same_gridSum_of_rows {vs : List Value} (hvs : AreRows vs) {found total : Value}
    (hfound : gridSum vs = .ok found) (htotal : plainSum vs = .ok total) :
    found.same total = false := by
  rw [gridSum_eq] at hfound
  have hlt : found.depth < total.depth := by
    rw [depth_plainSum hfound, depth_plainSum htotal]
    exact depths_gridElements_lt _ hvs
  refine Bool.eq_false_iff.mpr fun hsame => ?_
  have := Value.depth_of_same hsame
  omega

variable {x : Context}

/-- Where the values of a field can be added from left to right, the sum of the field is what they
come to, just when they are not rows of a grid.  When they are, the sum is not even equal to it. -/
theorem sum_eq_plainSum_iff (hc : x.criteria.WellPosed) (name : String) :
    ∃ vs, x.presentValues (.text name) = .ok vs ∧ ∀ total, plainSum vs = .ok total →
      (x.sum (.text name) = .ok total ↔ ¬AreRows vs) ∧
      (AreRows vs → ∀ found, x.sum (.text name) = .ok found → found.same total = false) := by
  refine ⟨_, presentValues_eq hc name, fun total htotal => ?_⟩
  rw [sum_eq hc]
  have hnot : AreRows (x.criteria.presentOf name) → ∀ found,
      gridSum (x.criteria.presentOf name) = .ok found → found.same total = false :=
    fun hrows found hfound => same_gridSum_of_rows hrows hfound htotal
  refine ⟨⟨fun hsum hrows => ?_, fun hrows => ?_⟩, hnot⟩
  · have hsame := hnot hrows total hsum
    rw [Value.same_refl] at hsame
    exact nomatch hsame
  · rw [gridSum_of_not_rows hrows, htotal]

/-- Lists of different lengths are joined, whatever is nested in them, and a source without the
field is left out. -/
theorem sum_eq_plainSum_ragged :
    let v : Value := .list [.int 1, .tuple [.text "a"]]
    let w : Value := .list [.text "b"]
    let x : Context := (Criteria.empty.run [.documents (.list [.document [(.text "n", v)],
      .record 0 1 [], .document [(.text "n", w)]])]).context
    x.criteria.WellPosed ∧ x.presentValues (.text "n") = .ok [v, w] ∧ ¬AreRows [v, w] ∧
      plainSum [v, w] = .ok (.list [.int 1, .tuple [.text "a"], .text "b"]) ∧
      x.sum (.text "n") = .ok (.list [.int 1, .tuple [.text "a"], .text "b"]) := by
  intro v w x
  have hc : x.criteria.WellPosed := by decide +kernel
  have hvalues : x.presentValues (.text "n") = .ok [v, w] := by with_unfolding_all rfl
  have htotal : plainSum [v, w] = .ok (.list [.int 1, .tuple [.text "a"], .text "b"]) := rfl
  have hrows : ¬AreRows [v, w] := by
    rintro ⟨-, width, hall⟩
    obtain ⟨_, ⟨⟩, rfl⟩ := hall v (by simp)
    obtain ⟨_, ⟨⟩, hlength⟩ := hall w (by simp)
    exact absurd hlength (by decide)
  obtain ⟨vs, hvs, hsum⟩ := sum_eq_plainSum_iff (x := x) hc "n"
  rw [hvalues] at hvs
  cases hvs
  exact ⟨hc, hvalues, hrows, htotal, (hsum _ htotal).1.mpr hrows⟩

/-- Two lists of two integers come to a list of four when they are added, and their sum is the sum
of the integers. -/
theorem sum_of_rows_ne_plainSum :
    let v : Value := .list [.int 1, .int 2]
    let w : Value := .list [.int 3, .int 4]
    let x : Context := (Criteria.empty.run [.documents (.list [.document [(.text "n", v)],
      .document [(.text "n", w)]])]).context
    x.criteria.WellPosed ∧ x.presentValues (.text "n") = .ok [v, w] ∧
      plainSum [v, w] = .ok (.list [.int 1, .int 2, .int 3, .int 4]) ∧
      x.sum (.text "n") = .ok (.int 10) := by
  intro v w x
  exact ⟨by decide +kernel, by with_unfolding_all rfl, rfl, by with_unfolding_all rfl⟩

end Context
end RecordQuery
