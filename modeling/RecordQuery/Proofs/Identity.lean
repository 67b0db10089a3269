import RecordQuery.Criteria
import RecordQuery.Proofs.Congruence
import RecordQuery.Proofs.Firsts

/-! # What an identity must meet

Looking up a collection of ids expects the identity field to equal a variant of one of them
(`holds_expectation_collection`): dropping repeated variants loses none, for equality does not tell
them apart.  A single id expects the same (`holds_expectation_single`), with one exception.  An id
with one variant is expected as it is, and a dictionary with a collection under its only key `$in`
is then a condition of its own: it stands for its candidates.  Such a dictionary is never among its
own candidates (`not_candidate_self`), so it does not stand for itself. -/

namespace RecordQuery

/-! ### Keeping the first of equal values -/

theorem Value.any_distinctItems {p : Value → Bool}
    (hp : ∀ v w, v.same w = true → p v = p w) (items : List Value) :
    (distinctItems items).any p = items.any p := by
  have hkept : distinctItems items = firsts same items := foldl_eq_firsts isEquiv_same items
  rw [hkept, any_firsts isEquiv_same hp]

theorem Value.distinctItems_pair {first second : Value} (h : second.same first = false) :
    distinctItems [first, second] = [first, second] := by
  simp [distinctItems, memberOf, h]

/-- Values that are among the first ones do not come after these. -/
theorem Value.distinctItems_append {kept items : List Value}
    (h : ∀ v ∈ items, v.memberOf (distinctItems kept) = true) :
    distinctItems (kept ++ items) = distinctItems kept := by
  induction items using List.reverseRecOn with
  | nil => rw [List.append_nil]
  | append_singleton items v ih =>
      have hitems := ih fun w hw => h w (List.mem_append_left [v] hw)
      unfold distinctItems at h hitems ⊢
      rw [← List.append_assoc, List.foldl_append, hitems, List.foldl_cons, List.foldl_nil,
        if_pos (h v (by simp))]

theorem Value.sizeOf_collection? {v : Value} {xs : List Value} (h : v.collection? = some xs) :
    sizeOf xs < sizeOf v := by
  cases v with
  | list ys => cases h; simp
  | tuple ys => cases h; simp
  | set frozen ys => cases h; simp
  | _ => exact nomatch h

namespace Condition

theorem ofValue_oneOfValue (cs : List Value) : ofValue (oneOfValue cs) = .oneOf cs := by
  have h : candidates? (oneOfValue cs) = some cs :=
    candidates?_eq_some_iff.mpr ⟨_, rfl, Value.same_refl membershipKey, rfl⟩
  unfold ofValue
  rw [h]

theorem holds_ofValue (e v : Value) :
    (ofValue e).holds v = ((candidates? e).getD [e]).any v.eq := by
  unfold ofValue
  cases candidates? e with
  | none => simp [holds]
  | some cs => rfl

/-- Whether some entry of a dictionary holds a collection with the dictionary itself in it. -/
def HoldsItself (entries : Dict) : Prop :=
  ∃ e ∈ entries, ∃ cs, e.2.collection? = some cs ∧ ∃ c ∈ cs, (Value.dict entries).same c = true

/-- No dictionary holds itself: the element would hold itself too, and is smaller. -/
theorem not_holdsItself (entries : Dict) : ¬ HoldsItself entries := by
  rintro ⟨e, he, cs, hcs, c, hc, hsame⟩
  obtain ⟨fs, rfl, hcov⟩ := Value.same_dict_iff.mp hsame
  obtain ⟨f, hf, hef⟩ := hcov.left e he
  have hrel := Value.collection?_congr hef.2
  rw [hcs] at hrel
  generalize hds : f.2.collection? = ds at hrel
  cases hrel with
  | some hcd =>
      obtain ⟨d, hd, hcd'⟩ := hcd.left (.dict fs) hc
      exact not_holdsItself fs ⟨f, hf, _, hds, d, hd, hcd'⟩
termination_by sizeOf entries
decreasing_by
  have h1 := List.sizeOf_lt_of_mem he
  have h2 : sizeOf e.2 < sizeOf e := by
    cases e
    simp only [Prod.mk.sizeOf_spec]
    omega
  have h3 := Value.sizeOf_collection? hcs
  have h4 := List.sizeOf_lt_of_mem hc
  have h5 : sizeOf fs < sizeOf (Value.dict fs) := by simp
  omega

theorem not_candidate_self {v : Value} {cs : List Value} (h : candidates? v = some cs) :
    ∀ c ∈ cs, v.same c = false := by
  intro c hc
  obtain ⟨e, rfl, -, he⟩ := candidates?_eq_some_iff.mp h
  rw [Bool.eq_false_iff]
  intro hvc
  exact not_holdsItself [e] ⟨e, List.mem_singleton_self e, cs, he, c, hc, hvc⟩

end Condition

/-! ### Expectations -/

namespace Identity

theorem any_candidates (ids v : Value) :
    (candidates ids).any v.eq = (each ids).any fun id => (variants id).any v.eq := by
  unfold candidates
  rw [Value.any_distinctItems fun _ _ h => Value.eq_congr (Value.same_refl v) h, List.any_flatMap]

theorem expectation_collection {ids : Value} (h : isCollection ids = true) :
    expectation ids = Condition.oneOfValue (candidates ids) := by
  unfold expectation
  rw [h]
  cases candidates ids with
  | nil => rfl
  | cons c cs => cases cs <;> rfl

/-- A collection of ids expects a variant of one of them. -/
theorem holds_expectation_collection {ids : Value} (h : isCollection ids = true) (v : Value) :
    (Condition.ofValue (expectation ids)).holds v =
      (each ids).any fun id => (variants id).any v.eq := by
  rw [← any_candidates, expectation_collection h, Condition.ofValue_oneOfValue]
  rfl

theorem candidates_single {id : Value} (h : isCollection id = false) :
    candidates id = Value.distinctItems (variants id) := by
  unfold isCollection at h
  rw [Option.isSome_eq_false_iff, Option.isNone_iff_eq_none] at h
  unfold candidates each
  rw [h, Option.getD_none, List.flatMap_singleton]

/-- A single id with one variant expects this variant. -/
theorem expectation_of_variants_singleton {id variant : Value} (h : isCollection id = false)
    (hv : variants id = [variant]) : expectation id = variant := by
  unfold expectation
  rw [h, candidates_single h, hv]
  rfl

/-- A single id with two variants expects one of the two. -/
theorem expectation_of_variants_pair {id first second : Value} (h : isCollection id = false)
    (hv : variants id = [first, second]) (hne : second.same first = false) :
    expectation id = Condition.oneOfValue (variants id) := by
  unfold expectation
  rw [h, candidates_single h, hv, Value.distinctItems_pair hne]

theorem variants_text_of_some {s : String} {u : Uuid} (h : Uuid.ofText? s = some u) :
    variants (.text s) = [.text s, .uuid u] := by
  simp only [variants, h]

theorem variants_text_of_none {s : String} (h : Uuid.ofText? s = none) :
    variants (.text s) = [.text s] := by
  simp only [variants, h]

/-- A single id expects one of its variants, or its candidates where it is itself a condition. -/
theorem holds_expectation_single {id : Value} (h : isCollection id = false) (v : Value) :
    (Condition.ofValue (expectation id)).holds v =
      ((Condition.candidates? id).getD (variants id)).any v.eq := by
  cases id with
  | uuid u =>
      rw [expectation_of_variants_pair h rfl rfl, Condition.ofValue_oneOfValue]
      rfl
  | text s =>
      cases hs : Uuid.ofText? s with
      | some u =>
          have hv := variants_text_of_some hs
          have hc : Condition.candidates? (.text s) = none := rfl
          rw [expectation_of_variants_pair h hv rfl, Condition.ofValue_oneOfValue, hc,
            Option.getD_none]
          rfl
      | none =>
          have hv := variants_text_of_none hs
          rw [expectation_of_variants_singleton h hv, hv]
          exact Condition.holds_ofValue _ v
  | list items => exact absurd h Bool.noConfusion
  | tuple items => exact absurd h Bool.noConfusion
  | set frozen items => exact absurd h Bool.noConfusion
  -- every other id has itself for its only variant
  | _ =>
      rw [expectation_of_variants_singleton h rfl]
      exact Condition.holds_ofValue _ v

end Identity
end RecordQuery
