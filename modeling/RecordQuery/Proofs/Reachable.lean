import RecordQuery.Criteria
import RecordQuery.Proofs.DistinctKeys

/-! # Criteria that builder calls reach

`Criteria.Reachable` holds of criteria that are created and then changed by any number of calls, of
which the failing ones change nothing.  Every call keeps `Criteria.Valid` (`valid_apply`), so it
holds of all of these (`Reachable.valid`): the options have passed their checks, and the selector
has one condition for each field. -/

namespace RecordQuery

/-- What succeeds after a step has the result of the step to start from. -/
theorem exists_of_bind_eq_ok {ε α β : Type} {x : Except ε α} {f : α → Except ε β} {b : β}
    (h : (x >>= f) = .ok b) : ∃ a, x = .ok a ∧ f a = .ok b := by
  cases x with
  | error e => exact nomatch h
  | ok a => exact ⟨a, rfl, h⟩

theorem exists_error_iff {ε α : Type} (x : Except ε α) : (∃ e, x = .error e) ↔ ¬∃ a, x = .ok a := by
  cases x with
  | error e => simp
  | ok a => simp

/-! ### Options -/

namespace Options

/-- A count that passes its check is absent or large enough. -/
theorem le_of_checkCount {name explanation : String} {least n : Int} {v : Value}
    (h : checkCount name explanation least v = .ok (some n)) : least ≤ n := by
  unfold checkCount at h
  split at h
  · simp at h
  · split at h
    · split at h
      · simp only [Except.ok.injEq, Option.some.injEq] at h
        omega
      · simp at h
    · simp at h

theorem Valid.of_check {skip limit sort fields : Value} {o : Options}
    (h : check skip limit sort fields = .ok o) : o.Valid := by
  obtain ⟨s, hs, h⟩ := exists_of_bind_eq_ok h
  obtain ⟨l, hl, h⟩ := exists_of_bind_eq_ok h
  obtain ⟨a, -, h⟩ := exists_of_bind_eq_ok h
  obtain ⟨fs, -, h⟩ := exists_of_bind_eq_ok h
  cases h
  constructor
  · rintro n rfl
    exact le_of_checkCount hs
  · rintro n rfl
    exact le_of_checkCount hl

theorem Valid.of_ofValue {v : Value} {o : Options} (h : ofValue v = .ok o) : o.Valid := by
  obtain ⟨d, -, h⟩ := exists_of_bind_eq_ok h
  obtain ⟨_, -, h⟩ := exists_of_bind_eq_ok h
  obtain ⟨fields, -, h⟩ := exists_of_bind_eq_ok h
  exact Valid.of_check h

end Options

/-! ### Criteria -/

namespace Criteria

/-- Whether the options have passed their checks and no field has two conditions. -/
structure Valid (c : Criteria) : Prop where
  options : c.options.Valid
  selector : Dict.Distinct c.selector

variable {c next : Criteria}

theorem valid_withConditions (hc : c.Valid) (conditions : Dict) :
    (c.withConditions conditions).Valid :=
  ⟨hc.options, Dict.distinct_merge hc.selector conditions⟩

theorem valid_filter (hc : c.Valid) {conditions : Value} {named : Dict}
    (h : c.filter conditions named = .ok next) : next.Valid := by
  obtain ⟨named, -, h⟩ := exists_of_bind_eq_ok h
  obtain ⟨d, -, h⟩ := exists_of_bind_eq_ok h
  cases h
  exact valid_withConditions (valid_withConditions hc d) named

theorem valid_skip (hc : c.Valid) {count : Value} (h : c.skip count = .ok next) : next.Valid := by
  obtain ⟨skip, hs, h⟩ := exists_of_bind_eq_ok h
  cases h
  refine ⟨⟨?_, hc.options.limit_pos⟩, hc.selector⟩
  rintro n rfl
  exact Options.le_of_checkCount hs

theorem valid_limit (hc : c.Valid) {count : Value} (h : c.limit count = .ok next) :
    next.Valid := by
  obtain ⟨limit, hl, h⟩ := exists_of_bind_eq_ok h
  cases h
  refine ⟨⟨hc.options.skip_nonneg, ?_⟩, hc.selector⟩
  rintro n rfl
  exact Options.le_of_checkCount hl

theorem valid_orderBy (hc : c.Valid) {ordering : Value} (h : c.orderBy ordering = .ok next) :
    next.Valid := by
  obtain ⟨sort, -, h⟩ := exists_of_bind_eq_ok h
  cases h
  exact ⟨⟨hc.options.skip_nonneg, hc.options.limit_pos⟩, hc.selector⟩

theorem valid_withExtras (hc : c.Valid) {extras : Value} (h : c.withExtras extras = .ok next) :
    next.Valid := by
  obtain ⟨e, -, h⟩ := exists_of_bind_eq_ok h
  cases h
  exact ⟨hc.options, hc.selector⟩

theorem valid_paginate (hc : c.Valid) {page perPage : Value}
    (h : c.paginate page perPage = .ok next) : next.Valid := by
  obtain ⟨extras, -, h⟩ := exists_of_bind_eq_ok h
  have hp : ({ c with extras } : Criteria).Valid := ⟨hc.options, hc.selector⟩
  split at h
  · cases h
    exact hp
  · exact valid_limit hp h

theorem valid_withDocuments (hc : c.Valid) {documents : Value}
    (h : c.withDocuments documents = .ok next) : next.Valid := by
  obtain ⟨docs, -, h⟩ := exists_of_bind_eq_ok h
  cases h
  exact ⟨hc.options, hc.selector⟩

/-- A call keeps criteria valid. -/
theorem valid_apply (hc : c.Valid) {step : Step} (h : c.apply step = .ok next) : next.Valid := by
  cases step with
  | filter conditions named => exact valid_filter hc h
  | only fields =>
      cases h
      exact ⟨⟨hc.options.skip_nonneg, hc.options.limit_pos⟩, hc.selector⟩
  | skip count => exact valid_skip hc h
  | limit count => exact valid_limit hc h
  | orderBy ordering => exact valid_orderBy hc h
  | extras extras => exact valid_withExtras hc h
  | paginate page perPage => exact valid_paginate hc h
  | documents documents => exact valid_withDocuments hc h
  | ids ids =>
      cases h
      exact valid_withConditions hc _

theorem valid_advance (hc : c.Valid) (step : Step) : (c.advance step).Valid := by
  unfold advance
  cases h : c.apply step with
  | ok next => exact valid_apply hc h
  | error e => exact hc

theorem valid_create {documents : List Value} {collection : Value} {conditions : Option Value}
    {settings : Settings} {options : Value}
    (h : create documents collection conditions settings options = .ok c) : c.Valid := by
  obtain ⟨o, ho, h⟩ := exists_of_bind_eq_ok h
  have hv := Options.Valid.of_ofValue ho
  cases conditions with
  | none =>
      cases h
      exact ⟨hv, List.Pairwise.nil⟩
  | some v =>
      obtain ⟨selector, hs, h⟩ := exists_of_bind_eq_ok h
      cases h
      cases he : v.entries with
      | error e => rw [he] at hs; cases hs
      | ok entries =>
          rw [he] at hs
          cases hs
          exact ⟨hv, Dict.distinct_ofEntries entries⟩

/-- Criteria that are created and then changed by calls; a failing call changes nothing. -/
inductive Reachable : Criteria → Prop
  | create {documents : List Value} {collection : Value} {conditions : Option Value}
      {settings : Settings} {options : Value} {c : Criteria}
      (h : Criteria.create documents collection conditions settings options = .ok c) : Reachable c
  | advance {c : Criteria} (h : Reachable c) (step : Step) : Reachable (c.advance step)

theorem reachable_empty : Reachable empty :=
  @Reachable.create [] .null none .standard .null empty rfl

/-- What a call that succeeds makes of reachable criteria is reachable. -/
theorem Reachable.of_apply (h : Reachable c) (step : Step) (hs : c.apply step = .ok next) :
    Reachable next := by
  have hadvance := h.advance step
  unfold Criteria.advance at hadvance
  rw [hs] at hadvance
  exact hadvance

theorem Reachable.run (h : Reachable c) (steps : List Step) : Reachable (c.run steps) := by
  unfold Criteria.run
  induction steps generalizing c with
  | nil => exact h
  | cons step steps ih => exact ih (h.advance step)

/-- Reachable criteria are valid. -/
theorem Reachable.valid (h : Reachable c) : c.Valid := by
  induction h with
  | create h => exact valid_create h
  | advance _ step ih => exact valid_advance ih step

end Criteria
end RecordQuery
