import RecordQuery.Context
import RecordQuery.Proofs.Matching

/-! # What retrieval and look-up give

The outcomes of `execute` and of `find`: `execute` cuts the window of the options out of the
arranged sources, `find` passes on the result of the query narrowed to the ids (`Context.narrowed`)
unless there is none, and every failure of its own is `Context.missing`.  This is that nothing was
found, where the failure can be reported: the ids and the collection are then writable
(`Context.Reportable`).  Where they are not, the report fails, and that is the failure of the
look-up, which reports nothing. -/

namespace RecordQuery
namespace Context

variable {x : Context} {ids id : Value}

/-- The query narrowed to some ids. -/
def narrowed (x : Context) (ids : Value) : Context := { x with criteria := x.criteria.forIds ids }

/-- Whether the failure of a look-up can be reported: no integer in the ids or in the collection is
too long to be written. -/
def Reportable (x : Context) (ids : Value) : Prop :=
  ids.Writable ∧ x.criteria.collection.Writable

instance (x : Context) (ids : Value) : Decidable (x.Reportable ids) :=
  inferInstanceAs (Decidable (_ ∧ _))

/-- The failure of a look-up that finds nothing. -/
def missing (x : Context) (ids : Value) : Fault :=
  if x.Reportable ids then .notFound "Document not found" ids x.criteria.collection
  else .integerTooLong

/-- What a look-up of a single id gives for the source it came upon, if any, where having come upon
none that counts is a fault. -/
def answerOr (fault : Fault) : Option Value → Except Fault Found
  | some s => if s.isBlank then .error fault else .ok (.one s)
  | none => .error fault

/-- What a look-up of a single id gives for the source it came upon, if any. -/
def answer (x : Context) (id : Value) : Option Value → Except Fault Found :=
  answerOr (x.missing id)

/-- The sources that were found. -/
def Found.sources : Found → List Value
  | .one s => [s]
  | .many docs => docs

theorem answer_eq_ok_iff {o : Option Value} {found : Found} :
    x.answer id o = .ok found ↔ ∃ s, o = some s ∧ s.isBlank = false ∧ found = .one s := by
  unfold answer
  cases o with
  | none => simp [answerOr]
  | some s =>
      cases hb : s.isBlank with
      | true => simp [answerOr, hb]
      | false =>
          simp only [answerOr, hb, Bool.false_eq_true, if_false, Except.ok.injEq]
          constructor
          · intro h
            exact ⟨s, rfl, hb, h.symm⟩
          · rintro ⟨t, ht, -, rfl⟩
            rw [Option.some.inj ht]

theorem execute_outcome (x : Context) :
    x.execute.outcome = x.arranged.map fun docs =>
      window docs (x.criteria.options.skip.getD 0) x.criteria.options.limit := by
  unfold execute arranged
  cases x.matched with
  | error e => rfl
  | ok docs =>
      simp only [bind, Except.bind]
      cases x.arrange docs <;> rfl

theorem missing_of_reportable (h : x.Reportable ids) :
    x.missing ids = .notFound "Document not found" ids x.criteria.collection :=
  if_pos h

theorem missing_of_not_reportable (h : ¬x.Reportable ids) : x.missing ids = .integerTooLong :=
  if_neg h

/-! ### Failures and their reports -/

theorem notFound_of_reportable {α : Type} (h : x.Reportable ids) :
    ∃ shown collection, ids.display = some shown ∧
      x.criteria.collection.display = some collection ∧
      (x.notFound ids : Logged α) =
        ⟨[⟨.error, "Document not found for ids " ++ shown ++ " in collection " ++ collection⟩],
          .error (x.missing ids)⟩ := by
  obtain ⟨shown, hshown⟩ := Option.isSome_iff_exists.mp (ids.display_isSome_iff.mpr h.1)
  obtain ⟨collection, hcollection⟩ :=
    Option.isSome_iff_exists.mp (x.criteria.collection.display_isSome_iff.mpr h.2)
  refine ⟨shown, collection, hshown, hcollection, ?_⟩
  rw [notFound, hshown, hcollection, missing_of_reportable h]
  rfl

theorem notFound_of_not_reportable {α : Type} (h : ¬x.Reportable ids) :
    (x.notFound ids : Logged α) = .silent (.error (x.missing ids)) := by
  rw [notFound, missing_of_not_reportable h]
  cases hshown : ids.display with
  | none => rfl
  | some shown =>
      cases hcollection : x.criteria.collection.display with
      | none => rfl
      | some collection =>
          refine absurd ⟨ids.display_isSome_iff.mp ?_, Value.display_isSome_iff _ |>.mp ?_⟩ h
          · rw [hshown]
            rfl
          · rw [hcollection]
            rfl

theorem notFound_outcome {α : Type} (x : Context) (ids : Value) :
    (x.notFound ids : Logged α).outcome = .error (x.missing ids) := by
  by_cases h : x.Reportable ids
  · obtain ⟨_, _, -, -, hreport⟩ := notFound_of_reportable (α := α) h
    rw [hreport]
  · rw [notFound_of_not_reportable h]
    rfl

/-! ### Look-ups -/

theorem find_collection (h : Identity.isCollection ids = true) :
    (x.find ids).outcome = match (x.narrowed ids).execute.outcome with
      | .error e => .error e
      | .ok docs => if docs.isEmpty then .error (x.missing ids) else .ok (.many docs) := by
  unfold find
  rw [if_pos h]
  show (Logged.andThen (x.narrowed ids).execute _).outcome = _
  unfold Logged.andThen
  cases (x.narrowed ids).execute.outcome with
  | error e => rfl
  | ok docs =>
      cases docs with
      | nil => exact notFound_outcome x ids
      | cons s docs => rfl

theorem find_single (h : Identity.isCollection id = false) :
    (x.find id).outcome = match (x.narrowed id).arranged with
      | .error e => .error e
      | .ok docs => x.answer id docs.head? := by
  unfold find
  rw [h, if_neg Bool.false_ne_true]
  show (Logged.andThen (Logged.silent ((x.narrowed id).arranged >>= fun docs =>
    return docs.head?)) _).outcome = _
  cases (x.narrowed id).arranged with
  | error e => rfl
  | ok docs =>
      cases docs with
      | nil => exact notFound_outcome x id
      | cons s docs =>
          simp only [Logged.andThen, Logged.silent, bind, Except.bind, pure, Except.pure,
            List.head?_cons, answer, answerOr]
          cases s.isBlank with
          | true => exact notFound_outcome x id
          | false => rfl

end Context
end RecordQuery
