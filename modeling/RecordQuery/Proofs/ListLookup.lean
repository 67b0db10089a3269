import RecordQuery.Proofs.SingleLookup

/-! # Looking up one id as a list

Looking up an id and looking up the list of it narrow a query to the same sources
(`selection_list`).  The first gives the first of them, the second those that the options leave, so
the two agree as long as nothing is skipped.  `list_lookup_iff` says exactly when: the document
found for the id is in the list just when it stands among the narrowed sources behind those to skip
and within the limit. -/

namespace RecordQuery
namespace Context

variable {x : Context} {id : Value}

/-- Narrowing to an id that is no condition is narrowing to the list of it. -/
theorem selection_list (hv : x.criteria.Valid) (hc : x.criteria.WellPosed)
    (hid : Identity.isCollection id = false) (hcond : Condition.candidates? id = none) :
    (x.criteria.forIds (.list [id])).selection = (x.criteria.forIds id).selection := by
  have hholds : (Condition.ofValue (Identity.expectation (.list [id]))).holds =
      (Condition.ofValue (Identity.expectation id)).holds := by
    funext v
    rw [Identity.holds_expectation_collection rfl, Identity.holds_expectation_single hid, hcond,
      Option.getD_none]
    show ((Identity.variants id).any v.eq || false) = _
    rw [Bool.or_false]
  refine List.filter_congr fun s hs => ?_
  have hs := hc.sources s hs
  rw [Criteria.admits_forIds hv hc.names hs, Criteria.admits_forIds hv hc.names hs]
  unfold Criteria.identityKey
  rw [Selector.meets_text hs, Selector.meets_text hs, hholds]

/-- The first of the narrowed sources is what a look-up of a single id finds. -/
theorem head?_of_find (hc : x.criteria.WellPosed) (hsort : x.criteria.options.sort = none)
    (hid : Identity.isCollection id = false) {s : Value}
    (hs : (x.find id).outcome = .ok (.one s)) :
    (x.criteria.forIds id).selection.head? = some s := by
  rw [find_single hid, narrowed_arranged hc, arrange_of_unarranged hsort] at hs
  obtain ⟨t, ht, -, hst⟩ := answer_eq_ok_iff.mp hs
  cases hst
  exact ht

/-- A look-up of the list of an id finds a source just when the options leave it. -/
theorem find_list_iff (hv : x.criteria.Valid) (hc : x.criteria.WellPosed)
    (hsort : x.criteria.options.sort = none) (hid : Identity.isCollection id = false)
    (hcond : Condition.candidates? id = none) (s : Value) :
    (∃ docs, (x.find (.list [id])).outcome = .ok (.many docs) ∧ s ∈ docs) ↔
      s ∈ window (x.criteria.forIds id).selection (x.criteria.options.skip.getD 0)
        x.criteria.options.limit := by
  have hnarrowed : (x.narrowed (.list [id])).execute.outcome =
      .ok (window (x.criteria.forIds id).selection (x.criteria.options.skip.getD 0)
        x.criteria.options.limit) := by
    rw [execute_outcome, narrowed_arranged hc, arrange_of_unarranged hsort,
      selection_list hv hc hid hcond]
    rfl
  rw [find_collection rfl, hnarrowed]
  generalize window _ _ _ = found
  constructor
  · rintro ⟨docs, hdocs, hs⟩
    simp only at hdocs
    split at hdocs
    · cases hdocs
    · cases hdocs
      exact hs
  · intro hs
    refine ⟨found, ?_, hs⟩
    cases found with
    | nil => simp at hs
    | cons t found => rfl

theorem isCollection_of_kind (h : id.kind ∈ [Kind.text, .int, .bool, .uuid]) :
    Identity.isCollection id = false := by
  cases id with
  | list items => simp [Value.kind] at h
  | tuple items => simp [Value.kind] at h
  | set frozen items => cases frozen <;> simp [Value.kind] at h
  | _ => rfl

theorem candidates?_of_kind (h : id.kind ∈ [Kind.text, .int, .bool, .uuid]) :
    Condition.candidates? id = none := by
  cases id with
  | dict entries => simp [Value.kind] at h
  | _ => rfl

/-- What is found for a text, an integer or an identifier is in what is found for the list of it
just when it stands among the narrowed sources where the options leave it, and so whenever nothing
is skipped. -/
theorem list_lookup_iff (hr : x.criteria.Reachable) (hc : x.criteria.WellPosed)
    (hsort : x.criteria.options.sort = none)
    (hid : id.kind ∈ [Kind.text, .int, .bool, .uuid]) {s : Value}
    (hs : (x.find id).outcome = .ok (.one s)) :
    ∃ narrowed, (x.narrowed id).matched = .ok narrowed ∧ narrowed.head? = some s ∧
      ((∃ docs, (x.find (.list [id])).outcome = .ok (.many docs) ∧ s ∈ docs) ↔
        ∃ i : Nat, x.criteria.options.skip.getD 0 ≤ i ∧
          (∀ n, x.criteria.options.limit = some n → i < x.criteria.options.skip.getD 0 + n) ∧
          narrowed[i]? = some s) ∧
      (x.criteria.options.skip.getD 0 = 0 →
        ∃ docs, (x.find (.list [id])).outcome = .ok (.many docs) ∧ s ∈ docs) := by
  have hv := hr.valid
  have hcol := isCollection_of_kind hid
  have hhead := head?_of_find hc hsort hcol hs
  have hskip : 0 ≤ x.criteria.options.skip.getD 0 := by
    cases h : x.criteria.options.skip with
    | none => exact Int.le_refl 0
    | some n => exact hv.options.skip_nonneg n h
  have hiff := find_list_iff hv hc hsort hcol (candidates?_of_kind hid) s
  rw [mem_window_iff hskip fun n h => Int.le_of_lt (hv.options.limit_pos n h)] at hiff
  refine ⟨_, matched_eq (x := x.narrowed id) (Criteria.wellPosed_forIds hc id), hhead, hiff, ?_⟩
  intro hzero
  refine hiff.mpr ⟨0, by omega, ?_, by rw [← List.head?_eq_getElem?]; exact hhead⟩
  intro n hn
  have := hv.options.limit_pos n hn
  omega

/-- With a limit and nothing skipped, the document of an id is in the list. -/
theorem list_lookup_within_limit :
    let a : Value := .document [(.text "_id", .text "a")]
    let b : Value := .document [(.text "_id", .text "b")]
    let x : Context := (Criteria.empty.run [.documents (.list [a, b, b]), .limit (.int 1),
      .extras (.dict [(.text "page", .int 3)])]).context
    (x.find (.text "b")).outcome = .ok (.one b) ∧
      ∃ docs, (x.find (.list [.text "b"])).outcome = .ok (.many docs) ∧ b ∈ docs := by
  intro a b x
  have hb : (x.find (.text "b")).outcome = .ok (.one b) := by
    with_unfolding_all rfl
  obtain ⟨narrowed, -, -, -, hfound⟩ := list_lookup_iff (x := x) (s := b)
    (Criteria.reachable_empty.run _) (by decide +kernel) rfl (by simp [Value.kind]) hb
  exact ⟨hb, hfound rfl⟩

/-- With one source skipped, the only document of an id is found for the id and not for the list
of it. -/
theorem list_lookup_skips :
    let a : Value := .document [(.text "_id", .text "a")]
    let x : Context := (Criteria.empty.run [.documents (.list [a]), .skip (.int 1)]).context
    x.criteria.Reachable ∧ x.criteria.WellPosed ∧ x.criteria.options.sort = none ∧
      (x.find (.text "a")).outcome = .ok (.one a) ∧
      (x.find (.list [.text "a"])).outcome = .error (x.missing (.list [.text "a"])) := by
  intro a x
  refine ⟨Criteria.reachable_empty.run _, by decide +kernel, rfl, ?_, rfl⟩
  with_unfolding_all rfl

end Context
end RecordQuery
