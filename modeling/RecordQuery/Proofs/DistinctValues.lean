import RecordQuery.Aggregate
import RecordQuery.Proofs.Firsts
import RecordQuery.Proofs.Matching

/-! # Distinct values of a field

The values of a field are to be listed without those that an earlier one is alike: of one kind, and
the same.  The search remembers the values that may be keys apart from those that may not, and so
compares a value with the earlier ones of its own sort only (`foldl_meet`).  Two tuples may be alike
and of different sorts, one with a set in it and one with the frozen set; `distinct_eq_firsts_iff`
says that the search lists what it is to list just when the field has no two such values. -/

namespace RecordQuery

theorem IsEquiv.and_eq {α β : Type} [DecidableEq β] {r : α → α → Bool} (hr : IsEquiv r)
    (f : α → β) : IsEquiv fun x y => f x == f y && r x y := by
  constructor
  · intro x
    rw [Bool.and_eq_true, beq_iff_eq]
    exact ⟨rfl, hr.refl x⟩
  · intro x y hxy
    rw [Bool.and_eq_true, beq_iff_eq] at hxy ⊢
    exact ⟨hxy.1.symm, hr.symm hxy.2⟩
  · intro x y z hxy hyz
    rw [Bool.and_eq_true, beq_iff_eq] at hxy hyz ⊢
    exact ⟨hxy.1.trans hyz.1, hr.trans hxy.2 hyz.2⟩

namespace Value

/-- Whether two values are of one kind and the same. -/
def alike (v w : Value) : Bool := v.kind == w.kind && v.same w

/-- Whether two values are alike and both or neither of them may be keys. -/
def alikeAsKeys (v w : Value) : Bool := v.hashable == w.hashable && v.alike w

theorem isEquiv_alike : IsEquiv alike := isEquiv_same.and_eq kind

theorem isEquiv_alikeAsKeys : IsEquiv alikeAsKeys := isEquiv_alike.and_eq hashable

theorem alike_of_alikeAsKeys {v w : Value} (h : v.alikeAsKeys w = true) : v.alike w = true :=
  (Bool.and_eq_true_iff.mp h).2

theorem fieldsOf_text {docs : List Value} (hd : ∀ s ∈ docs, s.hasFields = true) (name : String) :
    fieldsOf (.text name) docs = .ok (docs.map fun s => (s.carried? name).getD .null) := by
  induction docs with
  | nil => rfl
  | cons s docs ih =>
      rw [List.forall_mem_cons] at hd
      rw [fieldsOf, ih hd.2, field_text hd.1]
      rfl

end Value

/-- The values of a field of the sources that match, null where it is absent. -/
def Criteria.valuesOf (c : Criteria) (name : String) : List Value :=
  c.selection.map fun s => (s.carried? name).getD .null

/-- The values of a field of the sources that match, where they are not null. -/
def Criteria.presentOf (c : Criteria) (name : String) : List Value :=
  (c.valuesOf name).filter Context.isPresent

namespace Context

/-! ### The search -/

/-- What is remembered when some values have been kept. -/
def Seen.ofKept (kept : List Value) : Seen :=
  ⟨kept.filter (·.hashable), kept.filter (!·.hashable), kept⟩

theorem holdsAlike_filter (v : Value) {p : Value → Bool}
    (hp : ∀ w, p w = (v.hashable == w.hashable)) (kept : List Value) :
    holdsAlike v (kept.filter p) = kept.any v.alikeAsKeys := by
  unfold holdsAlike
  rw [List.any_filter]
  congr 1
  funext w
  rw [hp w]
  rfl

/-- A value is kept when none of those kept is alike and of its sort. -/
theorem meet_ofKept (kept : List Value) (v : Value) : (Seen.ofKept kept).meet v =
    Seen.ofKept (if kept.any v.alikeAsKeys then kept else kept ++ [v]) := by
  unfold Seen.meet
  cases hv : v.hashable with
  | true =>
      have hheld : holdsAlike v (Seen.ofKept kept).hashable = kept.any v.alikeAsKeys :=
        holdsAlike_filter v (fun w => by rw [hv, Bool.true_beq]) kept
      rw [if_pos rfl, hheld]
      split
      · rfl
      · simp [Seen.ofKept, hv]
  | false =>
      have hheld : holdsAlike v (Seen.ofKept kept).others = kept.any v.alikeAsKeys :=
        holdsAlike_filter v (fun w => by rw [hv, Bool.false_beq]) kept
      rw [if_neg Bool.false_ne_true, hheld]
      split
      · rfl
      · simp [Seen.ofKept, hv]

/-- The search keeps the first of the values that are alike as keys. -/
theorem foldl_meet (vs : List Value) :
    vs.foldl Seen.meet ⟨[], [], []⟩ = Seen.ofKept (firsts Value.alikeAsKeys vs) := by
  induction vs using List.reverseRecOn with
  | nil => rfl
  | append_singleton vs v ih =>
      rw [List.foldl_append, ih, List.foldl_cons, List.foldl_nil, meet_ofKept,
        any_related_firsts Value.isEquiv_alikeAsKeys, firsts_concat]

theorem distinctValues_eq (vs : List Value) :
    distinctValues vs = firsts Value.alikeAsKeys vs := by
  unfold distinctValues
  rw [foldl_meet]
  rfl

/-! ### Values of a query -/

variable {x : Context}

theorem fieldsOf_matched (hc : x.criteria.WellPosed) (name : String) :
    (x.matched >>= Value.fieldsOf (.text name)) = .ok (x.criteria.valuesOf name) := by
  rw [matched_eq hc]
  exact Value.fieldsOf_text (fun s hs => hc.hasFields_of_mem hs) name

theorem presentValues_eq (hc : x.criteria.WellPosed) (name : String) :
    x.presentValues (.text name) = .ok (x.criteria.presentOf name) := by
  show (x.matched >>= fun docs => Value.fieldsOf (.text name) docs >>= fun vs =>
    pure (vs.filter isPresent)) = _
  rw [← bind_assoc, fieldsOf_matched hc]
  rfl

theorem distinct_eq (hc : x.criteria.WellPosed) (name : String) :
    x.distinct (.text name) = .ok (firsts Value.alikeAsKeys (x.criteria.valuesOf name)) := by
  rw [← distinctValues_eq]
  show (x.matched >>= fun docs => Value.fieldsOf (.text name) docs >>= fun vs =>
    pure (distinctValues vs)) = _
  rw [← bind_assoc, fieldsOf_matched hc]
  rfl

/-- The distinct values of a field are its values without those that an earlier one is alike, just
when values that are alike are keys together, and just then no two of them are alike.  Every value
of the field is alike one of them in any case. -/
theorem distinct_eq_firsts_iff (hc : x.criteria.WellPosed) (name : String) :
    ∃ values result, (x.matched >>= Value.fieldsOf (.text name)) = .ok values ∧
      x.distinct (.text name) = .ok result ∧
      (result = firsts Value.alike values ↔
        ∀ v ∈ values, ∀ w ∈ values, v.alike w = true → v.hashable = w.hashable) ∧
      ((result.Pairwise fun v w => w.alike v = false) ↔
        ∀ v ∈ values, ∀ w ∈ values, v.alike w = true → v.hashable = w.hashable) ∧
      ∀ v ∈ values, ∃ w ∈ result, v.alike w = true := by
  have hfiner : ∀ v w, Value.alikeAsKeys v w = true → Value.alike v w = true := fun v w h =>
    Value.alike_of_alikeAsKeys h
  have hagree : ∀ v w : Value, (v.alike w = true → v.alikeAsKeys w = true) ↔
      (v.alike w = true → v.hashable = w.hashable) := by
    intro v w
    refine forall_congr' fun h => ?_
    unfold Value.alikeAsKeys
    rw [h, Bool.and_true, beq_iff_eq]
  refine ⟨x.criteria.valuesOf name, firsts Value.alikeAsKeys (x.criteria.valuesOf name),
    fieldsOf_matched hc name, distinct_eq hc name, ?_, ?_, ?_⟩
  · rw [firsts_eq_iff Value.isEquiv_alikeAsKeys Value.isEquiv_alike hfiner]
    simp only [hagree]
  · rw [pairwise_firsts_iff Value.isEquiv_alikeAsKeys Value.isEquiv_alike hfiner]
    simp only [hagree]
  · intro v hv
    obtain ⟨w, hw, hvw⟩ := exists_mem_firsts Value.isEquiv_alikeAsKeys hv
    exact ⟨w, hw, Value.alike_of_alikeAsKeys hvw⟩

/-- Lists, which are no keys, among a truth value, an equal number and an absent field. -/
theorem distinct_eq_firsts_mixed :
    let tagged : Value → Value := fun v => .document [(.text "tags", v)]
    let a : Value := .list [.text "a"]
    let b : Value := .list [.text "b"]
    let x : Context := (Criteria.empty.run [.documents (.list [tagged a, tagged (.int 1), tagged b,
      tagged (.bool true), .record 0 1 [], tagged a, tagged (.int 1)])]).context
    ∃ values, (x.matched >>= Value.fieldsOf (.text "tags")) = .ok values ∧
      x.distinct (.text "tags") = .ok (firsts Value.alike values) ∧
      (firsts Value.alike values).length = 5 := by
  intro tagged a b x
  obtain ⟨values, result, hvalues, hresult, hiff, -, -⟩ :=
    distinct_eq_firsts_iff (x := x) (by decide +kernel) "tags"
  have hlist : (x.matched >>= Value.fieldsOf (.text "tags")) =
      .ok [a, .int 1, b, .bool true, .null, a, .int 1] := by with_unfolding_all rfl
  rw [hlist] at hvalues
  cases hvalues
  have heq := hiff.mpr (by decide +kernel)
  rw [heq] at hresult
  exact ⟨_, hlist, hresult, by decide +kernel⟩

/-- Two tuples that are alike, the one with a set and the other with the frozen set in it, are both
listed. -/
theorem distinct_keeps_alike_tuples :
    let s : Value := .tuple [.set false [.int 1]]
    let t : Value := .tuple [.set true [.int 1]]
    let x : Context := (Criteria.empty.run [.documents (.list
      [.document [(.text "v", s)], .document [(.text "v", t)]])]).context
    x.criteria.WellPosed ∧ (x.matched >>= Value.fieldsOf (.text "v")) = .ok [s, t] ∧
      s.alike t = true ∧ firsts Value.alike [s, t] = [s] ∧
      x.distinct (.text "v") = .ok [s, t] := by
  intro s t x
  have halike : t.alike s = true := by decide +kernel
  have hfirsts : firsts Value.alike [s, t] = [s] := by
    have := firsts_concat (r := Value.alike) [s] t
    rw [List.any_cons, halike, Bool.true_or, if_pos rfl] at this
    exact this
  refine ⟨by decide +kernel, ?_, by decide +kernel, hfirsts, ?_⟩
  · with_unfolding_all rfl
  · with_unfolding_all rfl

end Context
end RecordQuery
