import RecordQuery.Proofs.Grouping
import RecordQuery.Proofs.Narrowing

/-! # From a group to a selection

Asking a query for one value of the field that it groups by gives the group of this value: the same
sources in the same order, so as many as the aggregate counts.  The new condition takes the place of
one on the same field (`selection_require`); nothing that this one kept out comes back, since a
matched source with the value meets it, and equality tells no source with the same value from this
one.  The value must be one that a source can be asked for: null also stands for an absent field,
and a NaN equals nothing.  `group_eq_selection` says all of this of every key of the groups. -/

namespace RecordQuery

/-! ### Conditions on one value -/

theorem Condition.candidates?_of_hashable {v : Value} (h : v.hashable = true) :
    candidates? v = none := by
  cases v with
  | dict entries => exact absurd h Bool.false_ne_true
  | _ => rfl

/-- No condition tells two values apart that are the same. -/
theorem Condition.holds_same (e : Value) {v w : Value} (h : v.same w = true) :
    (ofValue e).holds v = (ofValue e).holds w := by
  unfold ofValue
  cases candidates? e with
  | none => exact Value.eq_congr h (Value.same_refl e)
  | some cs => exact any_eq_congr h (Covers.refl fun c _ => Value.same_refl c)

/-- What is no NaN is equal to what it is the same as. -/
theorem Value.eq_of_not_nan (v : Value) {w : Value} (h : w.isNaN = false) : v.eq w = v.same w := by
  unfold Value.eq
  cases hs : v.same w with
  | false => rw [Bool.and_false]
  | true => rw [isNaN_congr hs, h]; rfl

namespace Criteria

variable {c : Criteria} {name : String} {v : Value}

theorem filter_singleton (c : Criteria) (name : String) (v : Value) :
    c.filter (.dict [(.text name, v)]) [] = .ok (c.require name v) := rfl

theorem meets_require {s : Value} (hs : s.hasFields = true)
    (hcond : Condition.candidates? v = none) (hnan : v.isNaN = false) :
    Selector.meets s (.text name) v = (s.carried? name).any (·.same v) := by
  rw [Selector.meets_text hs]
  unfold Condition.ofValue
  rw [hcond]
  cases s.carried? name with
  | none => rfl
  | some w => exact Value.eq_of_not_nan w hnan

/-- Asking for a value that a matched source has in a field leaves the matched sources that have
it. -/
theorem selection_require (hv : c.Valid) (hc : c.WellPosed) {s : Value} (hs : s ∈ c.selection)
    (hcarried : s.carried? name = some v) (hcond : Condition.candidates? v = none)
    (hnan : v.isNaN = false) :
    (c.require name v).selection =
      c.selection.filter fun t => (t.carried? name).any (·.same v) := by
  obtain ⟨hmem, hadm⟩ := List.mem_filter.mp hs
  rw [Selector.admits_eq_erase (hc.sources s hmem) hc.names hv.selector name,
    Bool.and_eq_true] at hadm
  -- the value meets whatever condition stood on the field before
  have hbefore : ∀ t, t.hasFields = true → (t.carried? name).any (·.same v) = true →
      (Dict.get? c.selector (.text name)).all (Selector.meets t (.text name)) = true := by
    intro t ht hsame
    rw [Option.all_eq_true] at hadm ⊢
    intro expected hexpected
    have hmeets := hadm.2 expected hexpected
    rw [Selector.meets_text (hc.sources s hmem), hcarried, Option.any_some] at hmeets
    obtain ⟨w, hw, hwv⟩ := (Option.any_eq_true _ _).mp hsame
    rw [Selector.meets_text ht, hw, Option.any_some, Condition.holds_same expected hwv, hmeets]
  unfold selection
  rw [List.filter_filter]
  refine List.filter_congr fun t ht => ?_
  have ht := hc.sources t ht
  rw [admits_require hv hc.names ht, meets_require ht hcond hnan,
    Selector.admits_eq_erase ht hc.names hv.selector name]
  cases hsame : (t.carried? name).any (·.same v) with
  | false => rw [Bool.and_false, Bool.false_and]
  | true => rw [hbefore t ht hsame, Bool.and_true, Bool.true_and]

/-- A key that is not null is carried, and not put in for an absent field. -/
theorem carried?_of_keyOf {s : Value} (hkey : (s.carried? name).getD .null = v)
    (hnull : v ≠ .null) : s.carried? name = some v := by
  cases hs : s.carried? name with
  | none =>
      rw [hs] at hkey
      exact absurd hkey.symm hnull
  | some w =>
      rw [hs] at hkey
      exact congrArg some hkey

/-- Asking for the key of a matched source leaves the matched sources with this key. -/
theorem selection_require_key (hv : c.Valid) (hc : c.WellPosed)
    (hfield : c.options.groupingField = some (.text name)) (hname : name ≠ "") {s : Value}
    (hs : s ∈ c.selection) (hkey : c.keyOf s = v) (hhashable : v.hashable = true)
    (hnull : v ≠ .null) (hnan : v.isNaN = false) :
    (c.require name v).selection = Context.withKey c.keyOf c.selection v := by
  have hkeyOf := keyOf_of_field hfield hname
  have hcarried : s.carried? name = some v := carried?_of_keyOf (hkeyOf s ▸ hkey) hnull
  rw [selection_require hv hc hs hcarried (Condition.candidates?_of_hashable hhashable) hnan]
  refine List.filter_congr fun t _ => ?_
  rw [hkeyOf]
  cases t.carried? name with
  | some w => rfl
  | none =>
      symm
      rw [Option.any_none, Option.getD_none, Bool.eq_false_iff]
      exact fun h => hnull (Value.same_null_iff.mp h)

end Criteria

namespace Context

variable {x : Context} {gs : Groups}

/-- A key that is not null nor a NaN selects its group: asked for it as the value of the field that
sources are grouped by, the query matches the sources of the group, as many as the aggregate
counts. -/
theorem group_eq_selection (hr : x.criteria.Reachable) (hc : x.criteria.WellPosed) {name : String}
    (hfield : x.criteria.options.groupingField = some (.text name)) (hname : name ≠ "")
    (hgroup : x.group = .ok gs) {k : Value} (hk : k ∈ gs.map (·.1)) (hnull : k ≠ .null)
    (hnan : k.isNaN = false) :
    ∃ next docs sizes, x.criteria.filter (.dict [(.text name, k)]) [] = .ok next ∧
      x.aggregate = .ok sizes ∧ listed? gs k = some docs ∧
      listed? sizes k = some docs.length ∧
      ({ x with criteria := next } : Context).matched = .ok docs ∧
      ({ x with criteria := next } : Context).count = .ok docs.length := by
  obtain ⟨hhashable, rfl⟩ := (group_eq_ok_iff hc (Criteria.groupable_of_field hfield)).mp hgroup
  rw [keys_groupsBy] at hk
  obtain ⟨s, hs, hkey⟩ := List.mem_map.mp (mem_of_mem_firsts hk)
  have hdocs := Criteria.selection_require_key hr.valid hc hfield hname hs hkey
    (hkey ▸ hhashable s hs) hnull hnan
  have hposed := Criteria.wellPosed_require hc name k
  refine ⟨_, withKey x.criteria.keyOf x.criteria.selection k, _,
    Criteria.filter_singleton x.criteria name k, aggregate_eq hgroup, listed?_groupsBy hk,
    listed?_sizes hk, ?_, ?_⟩
  · rw [← hdocs]
    exact matched_eq (x := { x with criteria := x.criteria.require name k }) hposed
  · rw [← hdocs]
    exact count_eq (x := { x with criteria := x.criteria.require name k }) hposed

/-- Two documents share a group under sets that list their elements differently, in a query with a
condition on the field: asked for the first of the sets, it matches both. -/
theorem group_eq_selection_sets :
    let k : Value := .set true [.text "p", .text "q"]
    let a : Value := .document [(.text "n", k)]
    let b : Value := .record 0 1 [(.text "n", .set true [.text "q", .text "p"])]
    let c : Value := .document [(.text "n", .text "p")]
    let x : Context := (Criteria.empty.run [.documents (.list [c, a, .document [], b]),
      .filter (.dict [(.text "n", Condition.oneOfValue
        [.text "p", .set false [.text "q", .text "p"]])]) [], .only [.text "n"]]).context
    x.group = .ok [(.text "p", [c]), (k, [a, b])] ∧
      ∃ next, x.criteria.filter (.dict [(.text "n", k)]) [] = .ok next ∧
        ({ x with criteria := next } : Context).matched = .ok [a, b] ∧
        ({ x with criteria := next } : Context).count = .ok 2 := by
  intro k a b c x
  have hgroup : x.group = .ok [(.text "p", [c]), (k, [a, b])] := by with_unfolding_all rfl
  obtain ⟨next, docs, sizes, hnext, -, hlisted, -, hmatched, hcount⟩ :=
    group_eq_selection (x := x) (Criteria.reachable_empty.run _) (by decide +kernel) rfl
      (by decide) hgroup (k := k) (by simp) (by simp [k]) rfl
  have hdocs : docs = [a, b] := Option.some.inj (hlisted.symm.trans (by with_unfolding_all rfl))
  rw [hdocs] at hmatched hcount
  exact ⟨hgroup, next, hnext, hmatched, hcount⟩

end Context
end RecordQuery
