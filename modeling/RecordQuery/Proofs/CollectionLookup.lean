import RecordQuery.Proofs.SingleLookup

/-! # Looking up a collection of ids

A query without options or a condition on the identity field answers the look-up of a collection of
ids by all matching sources whose identity field equals a variant of one of them, in the order of
the sources; where there is none, it fails and reports one error.  Only a failure that cannot be
reported, because an integer in the ids or in the collection is too long to be written, is another
one, and there is no report.

Dropping repeated variants loses no source, since equality does not tell them apart.  For the same
reason neither the order of the ids matters nor how often or in what kind of collection each of them
stands: `variants_congr` says that equal ids have the same variants, and `find_collection_iff` puts
all of this together. -/

namespace RecordQuery

/-! ### Reports -/

/-- The errors that are reported. -/
def Logged.errors {α : Type} (r : Logged α) : List Log.Entry := r.log.filter (·.level = .error)

/-! ### Variants of equal ids -/

/-- Two lists of elements whose images cover each other have images that do. -/
theorem Covers.flatMap {α β : Type} {r : α → α → Prop} {q : β → β → Prop} {f : α → List β}
    {xs ys : List α} (h : Covers r xs ys) (hf : ∀ x y, r x y → Covers q (f x) (f y)) :
    Covers q (xs.flatMap f) (ys.flatMap f) := by
  constructor
  · intro v hv
    obtain ⟨x, hx, hvx⟩ := List.mem_flatMap.mp hv
    obtain ⟨y, hy, hxy⟩ := h.left x hx
    obtain ⟨w, hw, hvw⟩ := (hf x y hxy).left v hvx
    exact ⟨w, List.mem_flatMap.mpr ⟨y, hy, hw⟩, hvw⟩
  · intro w hw
    obtain ⟨y, hy, hwy⟩ := List.mem_flatMap.mp hw
    obtain ⟨x, hx, hxy⟩ := h.right y hy
    obtain ⟨v, hv, hvw⟩ := (hf x y hxy).right w hwy
    exact ⟨v, List.mem_flatMap.mpr ⟨x, hx, hv⟩, hvw⟩

namespace Identity

theorem variants_of_other {v : Value} (hu : ∀ u, v ≠ .uuid u) (ht : ∀ s, v ≠ .text s) :
    variants v = [v] := by
  cases v with
  | uuid u => exact absurd rfl (hu u)
  | text s => exact absurd rfl (ht s)
  | _ => rfl

/-- Ids that are the same have the same variants: an identifier is the same as no other value, nor
is a text, and every other id is its only variant. -/
theorem variants_congr {v w : Value} (h : v.same w = true) :
    Covers (fun x y => x.same y = true) (variants v) (variants w) := by
  by_cases hu : ∃ u, v = .uuid u
  · obtain ⟨u, rfl⟩ := hu
    rw [Value.same_uuid_iff.mp h]
    exact Covers.refl fun x _ => Value.same_refl x
  · by_cases ht : ∃ s, v = .text s
    · obtain ⟨s, rfl⟩ := ht
      rw [Value.same_text_iff.mp h]
      exact Covers.refl fun x _ => Value.same_refl x
    · have hwu : ∀ u, w ≠ .uuid u := by
        rintro u rfl
        exact hu ⟨u, Value.same_uuid_iff.mp (Value.same_symm h)⟩
      have hwt : ∀ s, w ≠ .text s := by
        rintro s rfl
        exact ht ⟨s, Value.same_text_iff.mp (Value.same_symm h)⟩
      rw [variants_of_other (not_exists.mp hu) (not_exists.mp ht), variants_of_other hwu hwt]
      constructor
      · intro x hx
        exact ⟨w, List.mem_singleton_self w, List.mem_singleton.mp hx ▸ h⟩
      · intro y hy
        exact ⟨v, List.mem_singleton_self v, List.mem_singleton.mp hy ▸ h⟩

/-- The forms under which the documents of some ids may be stored. -/
def forms (ids : Value) : List Value := (each ids).flatMap variants

theorem holds_expectation_forms {ids : Value} (h : isCollection ids = true) (v : Value) :
    (Condition.ofValue (expectation ids)).holds v = (forms ids).any v.eq := by
  rw [holds_expectation_collection h]
  unfold forms
  rw [List.any_flatMap]

end Identity

/-- Forms that are the same up to order and repetition store the same sources. -/
theorem Criteria.stores_congr (c : Criteria) {forms others : List Value}
    (h : Covers (fun x y => x.same y = true) forms others) (s : Value) :
    c.stores forms s = c.stores others s := by
  unfold stores
  split
  · rw [Condition.any_eq_congr (Value.same_refl _) h]
  · rfl

/-! ### The look-up -/

namespace Context

variable {x : Context} {ids : Value}

theorem errors_execute (x : Context) : x.execute.errors = [] := by
  unfold execute
  cases x.matched with
  | error e => rfl
  | ok docs =>
      simp only [bind, Except.bind]
      cases x.arrange docs <;> rfl

/-- A report that is made counts as an error when it is one. -/
theorem errors_notFound (x : Context) (ids : Value) :
    (x.notFound ids : Logged Found).errors = (x.notFound ids : Logged Found).log := by
  by_cases h : x.Reportable ids
  · obtain ⟨_, _, -, -, hreport⟩ := notFound_of_reportable (α := Found) h
    rw [hreport]
    rfl
  · rw [notFound_of_not_reportable h]
    rfl

/-- A collection that finds nothing reports what its failure reports, and any other outcome no
error. -/
theorem errors_find_collection (h : Identity.isCollection ids = true) :
    (x.find ids).errors = match (x.narrowed ids).execute.outcome with
      | .ok [] => (x.notFound ids : Logged Found).log
      | _ => [] := by
  have hexecute : (x.narrowed ids).execute.log.filter (·.level = .error) = [] :=
    errors_execute (x.narrowed ids)
  unfold find Logged.errors
  rw [if_pos h]
  show (Logged.andThen (x.narrowed ids).execute _).log.filter _ = _
  unfold Logged.andThen
  cases (x.narrowed ids).execute.outcome with
  | error e => exact hexecute
  | ok docs =>
      cases docs with
      | nil =>
          show ((x.narrowed ids).execute.log ++ _).filter _ = _
          rw [List.filter_append, hexecute]
          exact errors_notFound x ids
      | cons s docs =>
          show ((x.narrowed ids).execute.log ++ []).filter _ = _
          rw [List.append_nil, hexecute]

/-- Without options, the query narrowed to a collection of ids gives all sources stored under one of
their forms. -/
theorem execute_narrowed (h : x.Direct) (hskip : x.criteria.options.skip = none)
    (hlimit : x.criteria.options.limit = none) (hids : Identity.isCollection ids = true) :
    (x.narrowed ids).execute.outcome =
      .ok (x.criteria.documents.filter (x.criteria.stores (Identity.forms ids))) := by
  rw [execute_outcome, narrowed_arranged h.wellPosed, arrange_of_unarranged h.unarranged,
    selection_forIds h (Identity.holds_expectation_forms hids)]
  show Except.ok (window _ (x.criteria.options.skip.getD 0) x.criteria.options.limit) = _
  rw [hskip, hlimit]
  exact congrArg _ (window_eq_drop (Int.le_refl 0))

/-- What is found for a collection of ids. -/
theorem find_outcome (h : x.Direct) (hskip : x.criteria.options.skip = none)
    (hlimit : x.criteria.options.limit = none) (hids : Identity.isCollection ids = true) :
    (x.find ids).outcome =
      if x.criteria.documents.filter (x.criteria.stores (Identity.forms ids)) = [] then
        .error (x.missing ids)
      else .ok (.many (x.criteria.documents.filter (x.criteria.stores (Identity.forms ids)))) := by
  rw [find_collection hids, execute_narrowed h hskip hlimit hids]
  cases x.criteria.documents.filter (x.criteria.stores (Identity.forms ids)) <;> rfl

theorem find_errors (h : x.Direct) (hskip : x.criteria.options.skip = none)
    (hlimit : x.criteria.options.limit = none) (hids : Identity.isCollection ids = true) :
    (x.find ids).errors =
      if x.criteria.documents.filter (x.criteria.stores (Identity.forms ids)) = [] then
        (x.notFound ids : Logged Found).log
      else [] := by
  rw [errors_find_collection hids, execute_narrowed h hskip hlimit hids]
  cases x.criteria.documents.filter (x.criteria.stores (Identity.forms ids)) <;> rfl

/-- Collections whose ids are equal up to order and repetition find the same, or neither finds
anything. -/
theorem find_congr (h : x.Direct) (hskip : x.criteria.options.skip = none)
    (hlimit : x.criteria.options.limit = none) (hids : Identity.isCollection ids = true)
    {other : Value} (hother : Identity.isCollection other = true)
    (hcovers : Covers (fun v w => v.eq w = true) (Identity.each ids) (Identity.each other)) :
    (∃ docs, (x.find ids).outcome = .ok (.many docs) ∧
      (x.find other).outcome = .ok (.many docs)) ∨
    (x.find ids).outcome = .error (x.missing ids) ∧
      (x.find other).outcome = .error (x.missing other) := by
  have hforms : Covers (fun v w => v.same w = true) (Identity.forms ids) (Identity.forms other) :=
    hcovers.flatMap fun v w hvw => Identity.variants_congr (Bool.and_eq_true_iff.mp hvw).2
  have hstores : x.criteria.stores (Identity.forms other) =
      x.criteria.stores (Identity.forms ids) :=
    funext fun s => (x.criteria.stores_congr hforms s).symm
  rw [find_outcome h hskip hlimit hids, find_outcome h hskip hlimit hother, hstores]
  split
  · exact .inr ⟨rfl, rfl⟩
  · exact .inl ⟨_, rfl, rfl⟩

/-- Looking up a collection of ids finds the matching sources that are stored under a variant of
one of them, in the order of the sources, and reports no error.  Where there is none, it fails and
reports one that says so, unless an integer in the ids or in the collection is too long to be
written: then it fails for that and reports none.  Collections whose ids are equal up to order and
repetition find the same, or both fail. -/
theorem find_collection_iff (h : x.Direct) (hskip : x.criteria.options.skip = none)
    (hlimit : x.criteria.options.limit = none) (hids : Identity.isCollection ids = true) :
    let stored := x.criteria.documents.filter fun s => x.criteria.stores
      ((Identity.each ids).flatMap Identity.variants) s
    let reported := ids.Writable ∧ x.criteria.collection.Writable
    (stored ≠ [] → (x.find ids).outcome = .ok (.many stored) ∧ (x.find ids).errors = []) ∧
    (stored = [] → reported → (x.find ids).outcome =
        .error (.notFound "Document not found" ids x.criteria.collection) ∧
      ∃ shown collection, ids.display = some shown ∧
        x.criteria.collection.display = some collection ∧
        (x.find ids).errors = [⟨.error, "Document not found for ids " ++ shown ++
          " in collection " ++ collection⟩]) ∧
    (stored = [] → ¬reported →
      (x.find ids).outcome = .error .integerTooLong ∧ (x.find ids).errors = []) ∧
    ((stored = [] ↔ (x.find ids).outcome =
        .error (.notFound "Document not found" ids x.criteria.collection)) ↔
      stored ≠ [] ∨ reported) ∧
    ∀ other : Value, Identity.isCollection other = true →
      Covers (fun v w => v.eq w = true) (Identity.each ids) (Identity.each other) →
      (∃ docs, (x.find ids).outcome = .ok (.many docs) ∧
        (x.find other).outcome = .ok (.many docs)) ∨
      (x.find ids).outcome = .error (x.missing ids) ∧
        (x.find other).outcome = .error (x.missing other) := by
  intro stored reported
  have houtcome := find_outcome h hskip hlimit hids
  have herrors := find_errors h hskip hlimit hids
  change _ = if stored = [] then _ else Except.ok (Found.many stored) at houtcome
  change _ = if stored = [] then _ else _ at herrors
  have hfound : stored ≠ [] → (x.find ids).outcome = .ok (.many stored) ∧
      (x.find ids).errors = [] := by
    intro hsome
    rw [houtcome, herrors, if_neg hsome, if_neg hsome]
    exact ⟨rfl, rfl⟩
  have hreport : stored = [] → reported → (x.find ids).outcome =
        .error (.notFound "Document not found" ids x.criteria.collection) ∧
      ∃ shown collection, ids.display = some shown ∧
        x.criteria.collection.display = some collection ∧
        (x.find ids).errors = [⟨.error, "Document not found for ids " ++ shown ++
          " in collection " ++ collection⟩] := by
    intro hnone hr
    obtain ⟨shown, collection, hshown, hcollection, hlog⟩ :=
      notFound_of_reportable (α := Found) (show x.Reportable ids from hr)
    rw [houtcome, herrors, if_pos hnone, if_pos hnone, missing_of_reportable hr, hlog]
    exact ⟨rfl, shown, collection, hshown, hcollection, rfl⟩
  have hsilent : stored = [] → ¬reported →
      (x.find ids).outcome = .error .integerTooLong ∧ (x.find ids).errors = [] := by
    intro hnone hr
    rw [houtcome, herrors, if_pos hnone, if_pos hnone, missing_of_not_reportable hr,
      notFound_of_not_reportable hr]
    exact ⟨rfl, rfl⟩
  refine ⟨hfound, hreport, hsilent, ?_, fun other hother hcovers =>
    find_congr h hskip hlimit hids hother hcovers⟩
  by_cases hnone : stored = []
  · rw [iff_true_left hnone, or_iff_right (not_not_intro hnone)]
    by_cases hr : reported
    · exact iff_of_true (hreport hnone hr).1 hr
    · rw [(hsilent hnone hr).1]
      exact iff_of_false nofun hr
  · rw [(hfound hnone).1]
    exact iff_of_true (iff_of_false hnone nofun) (.inl hnone)

/-- An identifier, given twice, and a text, among a document stored under the text of the
identifier, one stored under another, and a record stored under the text: the set of the two finds
the same, and a list of other ids fails and reports it. -/
theorem find_collection_iff_forms :
    let u : Uuid := ⟨7⟩
    let a : Value := .document [(.text "_id", .text u.text), (.text "n", .text "1")]
    let b : Value := .document [(.text "_id", .text "x"), (.text "n", .text "1")]
    let c : Value := .record 0 1 [(.text "_id", .text "b"), (.text "n", .text "1")]
    let x : Context := (Criteria.empty.run [.documents (.list [c, b, a]),
      .filter (.dict [(.text "n", .text "1")]) []]).context
    let ids : Value := .list [.uuid u, .text "b", .uuid u]
    let other : Value := .set false [.text "b", .uuid u]
    x.Direct ∧ (x.find ids).outcome = .ok (.many [c, a]) ∧ (x.find ids).errors = [] ∧
      (x.find other).outcome = .ok (.many [c, a]) ∧
      (x.find (.tuple [.text "y", .null])).outcome =
        .error (.notFound "Document not found" (.tuple [.text "y", .null]) .null) ∧
      (x.find (.tuple [.text "y", .null])).errors.length = 1 := by
  intro u a b c x ids other
  have hx : x.Direct := ⟨by decide +kernel, by decide +kernel, rfl⟩
  have hall : [c, b, a].map (x.criteria.stores (Identity.forms ids)) = [true, false, true] := by
    decide +kernel
  have hstored : [c, b, a].filter (x.criteria.stores (Identity.forms ids)) = [c, a] := by
    simp only [List.map_cons, List.map_nil, List.cons.injEq] at hall
    simp [hall]
  have hnone : [c, b, a].filter
      (x.criteria.stores (Identity.forms (.tuple [.text "y", .null]))) = [] := by
    rw [List.filter_eq_nil_iff]
    decide +kernel
  have hwritable : (Value.tuple [.text "y", .null]).Writable ∧ Value.null.Writable := by decide
  obtain ⟨hfound, -, -, -, hsame⟩ := find_collection_iff hx rfl rfl
    (rfl : Identity.isCollection ids = true)
  obtain ⟨-, hmissing, -⟩ := find_collection_iff hx rfl rfl
    (rfl : Identity.isCollection (.tuple [.text "y", .null]) = true)
  change [c, b, a].filter (x.criteria.stores (Identity.forms ids)) ≠ [] → _ at hfound
  obtain ⟨hids, herrors⟩ := hfound (by rw [hstored]; simp)
  change _ = Except.ok (Found.many ([c, b, a].filter (x.criteria.stores (Identity.forms ids))))
    at hids
  rw [hstored] at hids
  have hcovers : Covers (fun v w => v.eq w = true) (Identity.each ids) (Identity.each other) :=
    ⟨by decide +kernel, by decide +kernel⟩
  have hother : (x.find other).outcome = .ok (.many [c, a]) := by
    rcases hsame other rfl hcovers with ⟨docs, hdocs, hothers⟩ | ⟨hfail, -⟩
    · rw [hothers, ← hdocs, hids]
    · rw [hids] at hfail
      cases hfail
  obtain ⟨hfail, shown, collection, -, -, hreport⟩ := hmissing hnone hwritable
  refine ⟨hx, hids, herrors, hother, hfail, ?_⟩
  rw [hreport]
  rfl

/-- A list of one integer that is too long to be written, under which nothing is stored, is not
reported as not found. -/
theorem find_long_ids_not_reported :
    let a : Value := .document [(.text "_id", .text "a")]
    let ids : Value := .list [.int Text.integerBound]
    let x : Context := (Criteria.empty.run [.documents (.list [a])]).context
    x.Direct ∧ x.criteria.options.skip = none ∧ x.criteria.options.limit = none ∧
      Identity.isCollection ids = true ∧
      x.criteria.documents.filter (x.criteria.stores (Identity.forms ids)) = [] ∧
      (x.find ids).outcome = .error .integerTooLong ∧ (x.find ids).errors = [] ∧
      ¬((x.find ids).outcome = .error (.notFound "Document not found" ids .null) ∧
        (x.find ids).errors.length = 1) := by
  intro a ids x
  have hx : x.Direct := ⟨by decide +kernel, rfl, rfl⟩
  have hnone : x.criteria.documents.filter (x.criteria.stores (Identity.forms ids)) = [] := rfl
  have hwritable : ¬x.Reportable ids := fun h =>
    Text.not_integerBound_lt (h.1 _ List.mem_cons_self)
  have houtcome : (x.find ids).outcome = .error .integerTooLong := by
    rw [find_outcome hx rfl rfl rfl, if_pos hnone, missing_of_not_reportable hwritable]
  have herrors : (x.find ids).errors = [] := by
    rw [find_errors hx rfl rfl rfl, if_pos hnone, notFound_of_not_reportable hwritable]
    rfl
  refine ⟨hx, rfl, rfl, rfl, hnone, houtcome, herrors, fun h => ?_⟩
  rw [houtcome] at h
  exact nomatch h.1

end Context
end RecordQuery
