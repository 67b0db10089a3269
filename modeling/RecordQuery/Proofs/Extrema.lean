import Mathlib.Data.List.MinMax
import Mathlib.Data.Prod.Lex
import Mathlib.Data.String.Basic
import RecordQuery.Proofs.Congruence
import RecordQuery.Proofs.DistinctValues

/-! # Least and greatest values

Values that are `OrderedBy` keys, points of a line, compare as their keys do and never fail to.  The
search for the least of them is then `List.argmin` of the key, and the search for the greatest
`List.argmax` (`minimum?_eq_argmin`, `maximum?_eq_argmax`): of values with one key both take the
first.  Numbers have such keys when none of them is a NaN, namely their points of the extended line
(`orderedBy_point`), and so have texts (`orderedBy_characters`).

The least of two lists is the least of the least of each, and the first list has the first of
equals (`argmin_append`). -/

namespace RecordQuery

variable {α β : Type} [LinearOrder β]

/-! ### Two lists -/

theorem argmin_pair (f : α → β) (a b : α) :
    [a, b].argmin f = if f b < f a then some b else some a := rfl

theorem argmin_append (f : α → β) (xs ys : List α) :
    (xs ++ ys).argmin f = ((xs.argmin f).toList ++ (ys.argmin f).toList).argmin f := by
  induction ys using List.reverseRecOn with
  | nil =>
      rw [List.append_nil, List.argmin_nil, Option.toList_none, List.append_nil]
      cases xs.argmin f with
      | none => rfl
      | some a => rfl
  | append_singleton ys y ih =>
      rw [← List.append_assoc, List.argmin_concat, List.argmin_concat, ih]
      cases xs.argmin f with
      | none =>
          cases ys.argmin f with
          | none => rfl
          | some b => by_cases hyb : f y < f b <;> simp [hyb]
      | some a =>
          cases ys.argmin f with
          | none => rfl
          | some b =>
              -- taking the first least of three does not depend on which two come first
              simp only [Option.toList_some, List.singleton_append, argmin_pair]
              by_cases hba : f b < f a <;> by_cases hyb : f y < f b
              · simp [argmin_pair, hba, hyb, hyb.trans hba]
              · simp [argmin_pair, hba, hyb]
              · simp [argmin_pair, hba, hyb]
              · have hya : ¬f y < f a := not_lt.mpr ((not_lt.mp hba).trans (not_lt.mp hyb))
                simp [argmin_pair, hba, hyb, hya]

theorem argmax_append (f : α → β) (xs ys : List α) :
    (xs ++ ys).argmax f = ((xs.argmax f).toList ++ (ys.argmax f).toList).argmax f :=
  argmin_append (fun x => OrderDual.toDual (f x)) xs ys

namespace Value

/-! ### Searches -/

/-- Whether values compare as their keys do. -/
def OrderedBy (key : Value → β) (vs : List Value) : Prop :=
  ∀ v ∈ vs, ∀ w ∈ vs, ∀ c : Comparison,
    compare c v w = .ok (c.holds (fun a b => decide (a < b)) (key v) (key w))

variable {key : Value → β} {vs ws : List Value}

theorem OrderedBy.subset (h : OrderedBy key vs) (hws : ws ⊆ vs) : OrderedBy key ws :=
  fun v hv w hw => h v (hws hv) w (hws hw)

/-- A search that never fails to compare is a fold. -/
theorem best_eq_foldl {r : Value → Value → Prop} [DecidableRel r]
    {better : Value → Value → Except Fault Bool} {v : Value}
    (h : ∀ a ∈ v :: vs, ∀ b ∈ v :: vs, better a b = .ok (decide (r a b))) :
    some <$> best better v vs = .ok ((v :: vs).foldl (List.argAux r) none) := by
  induction vs generalizing v with
  | nil => rfl
  | cons w ws ih =>
      have hw := h w (by simp) v (by simp)
      rw [best, hw]
      show some <$> (if decide (r w v) then best better w ws else best better v ws) =
        .ok (ws.foldl _ (if r w v then some w else some v))
      by_cases hwv : r w v
      · rw [if_pos (decide_eq_true hwv), if_pos hwv]
        exact ih fun a ha b hb => h a (List.mem_cons_of_mem _ ha) b (List.mem_cons_of_mem _ hb)
      · have hsub : v :: ws ⊆ v :: w :: ws := List.cons_subset_cons _ (List.subset_cons_self _ _)
        rw [if_neg (by rwa [decide_eq_true_iff]), if_neg hwv]
        exact ih fun a ha b hb => h a (hsub ha) b (hsub hb)

theorem minimum?_eq_argmin (h : OrderedBy key vs) : minimum? vs = .ok (vs.argmin key) := by
  cases vs with
  | nil => rfl
  | cons v vs => exact best_eq_foldl fun a ha b hb => h a ha b hb .less

theorem maximum?_eq_argmax (h : OrderedBy key vs) : maximum? vs = .ok (vs.argmax key) := by
  cases vs with
  | nil => rfl
  | cons v vs => exact best_eq_foldl fun a ha b hb => h a ha b hb .greater

/-- Both searches find something among some values that are ordered by keys. -/
theorem OrderedBy.exists_least_and_greatest (h : OrderedBy key vs) (hne : vs ≠ []) :
    ∃ least ∈ vs.argmin key, ∃ greatest ∈ vs.argmax key,
      minimum? vs = .ok (some least) ∧ maximum? vs = .ok (some greatest) := by
  obtain ⟨least, hleast⟩ :=
    Option.ne_none_iff_exists'.mp (mt (List.argmin_eq_none (f := key)).mp hne)
  obtain ⟨greatest, hgreatest⟩ :=
    Option.ne_none_iff_exists'.mp (mt (List.argmax_eq_none (f := key)).mp hne)
  refine ⟨least, hleast, greatest, hgreatest, ?_, ?_⟩
  · rw [minimum?_eq_argmin h, hleast]
  · rw [maximum?_eq_argmax h, hgreatest]

/-! ### Numbers -/

theorem compare_of_number? {c : Comparison} {v w : Value} {m n : Number} (hv : v.number? = some m)
    (hw : w.number? = some n) : compare c v w = .ok (c.holds Number.lt m n) := by
  cases v with
  | bool b => cases hv; rw [compare, hw]
  | number m => cases hv; rw [compare, hw]
  | _ => exact nomatch hv

/-- The point of the extended line that a value stands for. -/
def point (v : Value) : Int ×ₗ Int :=
  match v.number?.bind Number.position? with
  | some p => toLex (p.side, p.units)
  | none => toLex (0, 0)

theorem before_eq (p q : Position) :
    p.before q = decide (toLex (p.side, p.units) < toLex (q.side, q.units)) := by
  rw [Bool.eq_iff_iff, decide_eq_true_iff, Prod.Lex.toLex_lt_toLex]
  simp [Position.before]

/-- Whether a value is a number and no NaN. -/
def IsOrderedNumber (v : Value) : Prop := v.number?.isSome = true ∧ v.isNaN = false

theorem exists_position? {v : Value} (h : v.IsOrderedNumber) :
    ∃ n p, v.number? = some n ∧ n.position? = some p := by
  obtain ⟨n, hn⟩ := Option.isSome_iff_exists.mp h.1
  have hnan := h.2
  rw [isNaN_of_number? hn, Number.isNaN_eq] at hnan
  obtain ⟨p, hp⟩ := Option.isSome_iff_exists.mp (Option.isNone_eq_false_iff.mp hnan)
  exact ⟨n, p, hn, hp⟩

theorem orderedBy_point (h : ∀ v ∈ vs, v.IsOrderedNumber) : OrderedBy point vs := by
  intro v hv w hw c
  obtain ⟨m, p, hm, hp⟩ := exists_position? (h v hv)
  obtain ⟨n, q, hn, hq⟩ := exists_position? (h w hw)
  have hlt : ∀ (a b : Number) (s t : Position), a.position? = some s → b.position? = some t →
      a.lt b = decide (toLex (s.side, s.units) < toLex (t.side, t.units)) := by
    intro a b s t ha hb
    unfold Number.lt
    rw [ha, hb]
    exact before_eq s t
  rw [compare_of_number? hm hn]
  unfold point
  rw [hm, hn, Option.bind_some, Option.bind_some, hp, hq]
  cases c with
  | less => exact congrArg Except.ok (hlt m n p q hp hq)
  | greater => exact congrArg Except.ok (hlt n m q p hq hp)

/-! ### Texts -/

/-- The characters of a text. -/
def characters : Value → String
  | .text s => s
  | _ => ""

theorem orderedBy_characters (h : ∀ v ∈ vs, v.kind = .text) : OrderedBy characters vs := by
  intro v hv w hw c
  obtain ⟨s, rfl⟩ := kind_eq_text_iff.mp (h v hv)
  obtain ⟨t, rfl⟩ := kind_eq_text_iff.mp (h w hw)
  rfl

end Value

/-! ### Extrema of a field -/

namespace Context

/-- What a search finds among the values of a field that are not null, and null where it finds
nothing. -/
def extremum (search : List Value → Except Fault (Option Value)) (x : Context) (name : Value) :
    Except Fault Value := do
  return (← search (← x.presentValues name)).getD .null

theorem minimum_eq_extremum (x : Context) (name : Value) :
    x.minimum name = x.extremum Value.minimum? name := rfl

theorem maximum_eq_extremum (x : Context) (name : Value) :
    x.maximum name = x.extremum Value.maximum? name := rfl

/-- Of two findings, those that are there: null stands for nothing found. -/
theorem filter_isPresent_pair {o p : Option Value} (ho : ∀ v ∈ o, isPresent v = true)
    (hp : ∀ v ∈ p, isPresent v = true) :
    [o.getD .null, p.getD .null].filter isPresent = o.toList ++ p.toList := by
  have hone : ∀ q : Option Value, (∀ v ∈ q, isPresent v = true) →
      [q.getD .null].filter isPresent = q.toList := by
    intro q hq
    cases q with
    | none => rfl
    | some v => exact List.filter_cons_of_pos (hq v rfl)
  rw [← hone o ho, ← hone p hp, ← List.filter_append]
  rfl

theorem extremum_eq {x : Context} (hc : x.criteria.WellPosed) {name : String}
    {search : List Value → Except Fault (Option Value)} {found : Option Value}
    (h : search (x.criteria.presentOf name) = .ok found) :
    x.extremum search (.text name) = .ok (found.getD .null) := by
  unfold extremum
  rw [presentValues_eq hc]
  show (search (x.criteria.presentOf name) >>= fun found => pure (found.getD .null)) = _
  rw [h]
  rfl

end Context
end RecordQuery
