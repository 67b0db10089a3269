import RecordQuery.Proofs.Narrowing

/-! # Looking up a single id

A query that neither arranges its sources nor has a condition on the identity field of its own
answers the look-up of a single id by the first matching source whose identity field equals a
variant of the id, and fails because nothing is found where there is none or this source is blank
(`Context.firstStored`).  There are two kinds of ids for which it does not.  A dictionary that is
itself a condition is looked up as its candidates, and a source stored under such a dictionary is
not found by it.  An id that holds an integer too long to be written is looked up like any other,
but that nothing is found cannot be reported, and then this is the failure.  All of it is part of
`find_eq_firstStored_iff`. -/

namespace RecordQuery

/-- Whether a source matches the selector and its identity field is present and equals one of some
forms of an id. -/
def Criteria.stores (c : Criteria) (forms : List Value) (s : Value) : Bool :=
  Selector.admits c.selector s &&
    match s.field? c.identityKey with
    | .ok (some v) => forms.any v.eq
    | _ => false

namespace Context

variable {x : Context} {id : Value}

/-- The first source stored under one of some forms of an id, or that there is none that counts. -/
def firstStored (x : Context) (id : Value) (forms : List Value) : Except Fault Found :=
  answerOr (.notFound "Document not found" id x.criteria.collection)
    (x.criteria.documents.find? (x.criteria.stores forms))

/-- Whether a query neither arranges its sources nor has a condition on the identity field. -/
structure Direct (x : Context) : Prop where
  wellPosed : x.criteria.WellPosed
  unconstrained : Dict.contains x.criteria.selector x.criteria.identityKey = false
  unarranged : x.criteria.options.sort = none

/-- What a look-up leaves is what is stored under the forms of an id that it expects. -/
theorem admits_forIds_eq_stores (h : x.Direct) {ids : Value} {forms : List Value}
    (hforms : ∀ v, (Condition.ofValue (Identity.expectation ids)).holds v = forms.any v.eq)
    {s : Value} (hs : s.hasFields = true) :
    Selector.admits (x.criteria.forIds ids).selector s = x.criteria.stores forms s := by
  have hsel : (x.criteria.forIds ids).selector =
      x.criteria.selector ++ [(x.criteria.identityKey, Identity.expectation ids)] :=
    Dict.insert_of_not_contains h.unconstrained _
  have hn := (Criteria.wellPosed_forIds h.wellPosed ids).names
  rw [Selector.admits_eq_all hs hn, hsel, List.all_append, ← Selector.admits_eq_all hs
    h.wellPosed.names, List.all_cons, List.all_nil, Bool.and_true]
  unfold Criteria.stores Criteria.identityKey
  rw [Selector.meets_text hs, Value.field?_text hs]
  cases s.carried? x.criteria.settings.idField with
  | none => rfl
  | some v => rw [Option.any_some, hforms]

theorem selection_forIds (h : x.Direct) {ids : Value} {forms : List Value}
    (hforms : ∀ v, (Condition.ofValue (Identity.expectation ids)).holds v = forms.any v.eq) :
    (x.criteria.forIds ids).selection = x.criteria.documents.filter (x.criteria.stores forms) :=
  List.filter_congr fun s hs => admits_forIds_eq_stores h hforms (h.wellPosed.sources s hs)

theorem find_eq_answer (h : x.Direct) (hid : Identity.isCollection id = false) :
    (x.find id).outcome = x.answer id (x.criteria.documents.find?
      (x.criteria.stores ((Condition.candidates? id).getD (Identity.variants id)))) := by
  rw [find_single hid, narrowed_arranged h.wellPosed, arrange_of_unarranged h.unarranged,
    selection_forIds h (Identity.holds_expectation_single hid), ← List.head?_filter]

/-- Where the failure can be reported, it is that nothing was found. -/
theorem firstStored_eq_answer {forms : List Value} (h : x.Reportable id) :
    x.firstStored id forms =
      x.answer id (x.criteria.documents.find? (x.criteria.stores forms)) := by
  unfold firstStored answer
  rw [missing_of_reportable h]

/-- The query over one document, stored under an id. -/
def stored (id : Value) : Context :=
  Criteria.context { Criteria.empty with
    documents := [.document [(.text Settings.standard.idField, id)]] }

theorem stored_direct (id : Value) : (stored id).Direct := by
  refine ⟨⟨?_, ?_⟩, rfl, rfl⟩
  · intro s hs
    rw [List.mem_singleton.mp hs]
    rfl
  · exact fun e he => absurd he List.not_mem_nil

theorem find?_stored (id : Value) (forms : List Value) :
    (stored id).criteria.documents.find? ((stored id).criteria.stores forms) =
      if forms.any id.eq then some (.document [(.text Settings.standard.idField, id)])
      else none := by
  have hdocs : (stored id).criteria.documents =
      [.document [(.text Settings.standard.idField, id)]] := rfl
  have hs : (stored id).criteria.stores forms (.document [(.text Settings.standard.idField, id)]) =
      forms.any id.eq := rfl
  rw [hdocs, List.find?_cons, hs]
  cases forms.any id.eq <;> rfl

theorem empty_direct : Criteria.empty.context.Direct :=
  ⟨⟨fun _ h => absurd h List.not_mem_nil, fun _ h => absurd h List.not_mem_nil⟩, rfl, rfl⟩

/-- Stored under itself, a condition is not found by its candidates. -/
theorem find_stored_condition {cs : List Value} (hc : Condition.candidates? id = some cs) :
    ((stored id).find id).outcome ≠ (stored id).firstStored id (Identity.variants id) := by
  obtain ⟨e, rfl, -⟩ := Condition.candidates?_eq_some_iff.mp hc
  have hself : (Identity.variants (.dict [e])).any (Value.dict [e]).eq = true := by
    show ((Value.dict [e]).eq (.dict [e]) || false) = true
    rw [Bool.or_false]
    exact Value.same_refl _
  have hnone : cs.any (Value.dict [e]).eq = false := by
    rw [List.any_eq_false]
    intro c hcm
    have := Condition.not_candidate_self hc c hcm
    unfold Value.eq
    simp [this]
  rw [find_eq_answer (stored_direct _) rfl, hc, Option.getD_some, find?_stored, hnone,
    firstStored, find?_stored, if_pos hself, if_neg Bool.false_ne_true]
  exact nofun

/-- Among no sources, an id with too long an integer is not reported as not found. -/
theorem find_empty_of_not_writable (hid : Identity.isCollection id = false) (hw : ¬id.Writable) :
    (Criteria.empty.context.find id).outcome ≠
      Criteria.empty.context.firstStored id (Identity.variants id) := by
  have hreport : ¬Criteria.empty.context.Reportable id := fun h => hw h.1
  rw [find_eq_answer empty_direct hid]
  show Except.error (Criteria.empty.context.missing id) ≠
    .error (.notFound "Document not found" id .null)
  rw [missing_of_not_reportable hreport]
  exact nofun

/-- A single id finds the first source stored under one of its variants, and is reported as not
found where there is none that counts, just when it is no condition and no integer in it is too
long.  One that is a condition finds the first source stored under one of its candidates; and where
an integer in the id or in the collection is too long, finding nothing fails for that. -/
theorem find_eq_firstStored_iff (hid : Identity.isCollection id = false) :
    ((∀ x : Context, x.Direct → x.criteria.collection.Writable →
        (x.find id).outcome = x.firstStored id (Identity.variants id)) ↔
      Condition.candidates? id = none ∧ id.Writable) ∧
    ∀ x : Context, x.Direct →
      (x.find id).outcome = answerOr
        (if id.Writable ∧ x.criteria.collection.Writable then
          .notFound "Document not found" id x.criteria.collection
        else .integerTooLong)
        (x.criteria.documents.find? (x.criteria.stores
          ((Condition.candidates? id).getD (Identity.variants id)))) := by
  refine ⟨⟨?_, ?_⟩, fun x hx => find_eq_answer hx hid⟩
  · intro h
    have hnull : Value.null.Writable := by decide
    constructor
    · cases hc : Condition.candidates? id with
      | none => rfl
      | some cs => exact absurd (h _ (stored_direct id) hnull) (find_stored_condition hc)
    · by_contra hw
      exact find_empty_of_not_writable hid hw (h _ empty_direct hnull)
  · rintro ⟨hc, hw⟩ x hx hcollection
    rw [find_eq_answer hx hid, hc, Option.getD_none, firstStored_eq_answer ⟨hw, hcollection⟩]

/-- A text is looked up among a document with another id and two records, one without an id. -/
theorem find_eq_firstStored_text :
    let a : Value := .document [(.text "_id", .text "a")]
    let b : Value := .record 0 1 [(.text "_id", .text "b"), (.text "n", .text "1")]
    let x : Context := (Criteria.empty.run [.documents (.list [.record 1 1 [], a, b]),
      .skip (.int 1)]).context
    x.Direct ∧ Condition.candidates? (.text "b") = none ∧ (Value.text "b").Writable ∧
      x.criteria.collection.Writable ∧
      (x.find (.text "b")).outcome = x.firstStored (.text "b") [.text "b"] ∧
      x.firstStored (.text "b") [.text "b"] = .ok (.one b) := by
  intro a b x
  have hx : x.Direct := ⟨by decide +kernel, rfl, rfl⟩
  have hwritable : (Value.text "b").Writable := by decide
  have hcollection : x.criteria.collection.Writable := by decide
  obtain ⟨hall, -⟩ := find_eq_firstStored_iff (rfl : Identity.isCollection (.text "b") = false)
  exact ⟨hx, rfl, hwritable, hcollection, hall.mpr ⟨rfl, hwritable⟩ x hx hcollection, rfl⟩

/-- A dictionary with a collection under `$in` for an id finds a document whose identity field it
does not equal, where none is stored under it. -/
theorem find_condition_finds_candidate :
    let id : Value := .dict [(.text "$in", .list [.text "a"])]
    let a : Value := .document [(.text "_id", .text "a")]
    let x : Context := (Criteria.empty.run [.documents (.list [a])]).context
    Identity.isCollection id = false ∧ x.Direct ∧ (x.find id).outcome = .ok (.one a) ∧
      x.firstStored id (Identity.variants id) =
        .error (.notFound "Document not found" id .null) := by
  intro id a x
  exact ⟨rfl, ⟨by decide +kernel, rfl, rfl⟩, rfl, rfl⟩

end Context
end RecordQuery
