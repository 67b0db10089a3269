import RecordQuery.Proofs.MatchingOutcomes

/-! # Whether something matches, and how much

Asking whether something matches stops at the first source that does; counting looks at every
source.  A source may match, not match or fail to be matched, and each search ends where it is not
passed over: the question passes over what does not match (`holdsForSome_eq_iff`), the count over
whatever gives an answer (`filter_eq_error_iff`).

So the two agree but for a source that fails after another has matched: the count fails there, while
the question has its answer.  The main statement is `hasAny_agrees`. -/

namespace RecordQuery
namespace Selector

variable {selector : Dict} {docs : List Value} {s : Value} {f : Fault}

/-! ### One source more -/

theorem holdsForSome_cons_no (hs : accepts selector s = .ok false) (docs : List Value) :
    holdsForSome selector (s :: docs) = holdsForSome selector docs := by
  rw [holdsForSome, hs]
  rfl

theorem holdsForSome_cons_of_ne (hs : accepts selector s ≠ .ok false) (docs : List Value) :
    holdsForSome selector (s :: docs) = accepts selector s := by
  rw [holdsForSome]
  cases haccepts : accepts selector s with
  | error f => rfl
  | ok answer =>
      cases answer with
      | true => rfl
      | false => exact absurd haccepts hs

theorem filter_cons_error (hs : accepts selector s = .error f) (docs : List Value) :
    filter selector (s :: docs) = .error f := by
  rw [filter, hs]
  rfl

theorem filter_cons_ok {answer : Bool} (hs : accepts selector s = .ok answer) (docs : List Value) :
    filter selector (s :: docs) =
      (filter selector docs).map fun found => if answer then s :: found else found := by
  rw [filter, hs]
  cases answer <;> cases filter selector docs <;> rfl

theorem filter_cons_eq_error_iff {answer : Bool} (hs : accepts selector s = .ok answer) :
    filter selector (s :: docs) = .error f ↔ filter selector docs = .error f := by
  rw [filter_cons_ok hs, map_eq_error_iff]

/-! ### All sources -/

/-- Nothing matches when every source answers no. -/
theorem holdsForSome_eq_false_iff : holdsForSome selector docs = .ok false ↔
    ∀ s ∈ docs, accepts selector s = .ok false := by
  induction docs with
  | nil => exact iff_of_true rfl (List.forall_mem_nil _)
  | cons s docs ih =>
      rw [List.forall_mem_cons, ← ih]
      by_cases hs : accepts selector s = .ok false
      · rw [holdsForSome_cons_no hs, and_iff_right hs]
      · rw [holdsForSome_cons_of_ne hs]
        exact iff_of_false hs fun h => hs h.1

/-- Any other outcome is that of the first source that does not answer no. -/
theorem holdsForSome_eq_iff {r : Except Fault Bool} (hne : .ok false ≠ r) :
    holdsForSome selector docs = r ↔
      StopsIn (fun b => accepts selector b = .ok false) (fun s => accepts selector s = r)
        docs := by
  induction docs with
  | nil => exact iff_of_false hne not_stopsIn_nil
  | cons s docs ih =>
      rw [stopsIn_cons, ← ih]
      by_cases hs : accepts selector s = .ok false
      · rw [holdsForSome_cons_no hs, hs, or_iff_right hne, and_iff_right rfl]
      · rw [holdsForSome_cons_of_ne hs, or_iff_left fun h => hs h.1]

/-- Finding all that matches fails at the first source that does not answer. -/
theorem filter_eq_error_iff : filter selector docs = .error f ↔
    StopsIn (fun b => ∃ answer, accepts selector b = .ok answer)
      (fun s => accepts selector s = .error f) docs := by
  induction docs with
  | nil => exact iff_of_false nofun not_stopsIn_nil
  | cons s docs ih =>
      rw [stopsIn_cons, ← ih]
      cases hs : accepts selector s with
      | error e =>
          rw [filter_cons_error hs, Except.error.injEq, Except.error.injEq]
          exact (or_iff_left fun ⟨⟨_, h⟩, _⟩ => nomatch h).symm
      | ok answer =>
          rw [filter_cons_eq_error_iff hs, or_iff_right nofun, and_iff_right ⟨answer, rfl⟩]

/-- Where all sources answer, something matches just when what is found is not empty. -/
theorem holdsForSome_of_filter {found : List Value} (h : filter selector docs = .ok found) :
    holdsForSome selector docs = .ok (!found.isEmpty) := by
  induction docs generalizing found with
  | nil =>
      cases h
      rfl
  | cons s docs ih =>
      cases hs : accepts selector s with
      | error e =>
          rw [filter_cons_error hs] at h
          cases h
      | ok answer =>
          rw [filter_cons_ok hs] at h
          cases hrest : filter selector docs with
          | error e =>
              rw [hrest] at h
              cases h
          | ok rest =>
              rw [hrest] at h
              cases h
              cases answer with
              | false =>
                  rw [holdsForSome_cons_no hs, ih hrest]
                  rfl
              | true =>
                  rw [holdsForSome_cons_of_ne (by rw [hs]; exact nofun), hs]
                  rfl

theorem filter_of_holdsForSome_false (h : holdsForSome selector docs = .ok false) :
    filter selector docs = .ok [] := by
  cases hfilter : filter selector docs with
  | ok found =>
      have hfound := holdsForSome_of_filter hfilter
      rw [h, Except.ok.injEq, eq_comm, Bool.not_eq_false', List.isEmpty_iff] at hfound
      rw [hfound]
  | error f =>
      obtain ⟨before, s, after, rfl, -, hs⟩ := filter_eq_error_iff.mp hfilter
      rw [holdsForSome_eq_false_iff.mp h s (by simp)] at hs
      cases hs

/-- A source that ends the question with a failure ends the count as well. -/
theorem filter_of_holdsForSome_error (h : holdsForSome selector docs = .error f) :
    filter selector docs = .error f := by
  obtain ⟨before, s, after, rfl, hbefore, hs⟩ :=
    (holdsForSome_eq_iff (r := .error f) nofun).mp h
  exact filter_eq_error_iff.mpr
    ⟨before, s, after, rfl, fun b hb => ⟨false, hbefore b hb⟩, hs⟩

/-! ### Failures after a match -/

/-- Whether matching fails at a source after another that is the first to match. -/
def FailsAfterMatch (selector : Dict) (docs : List Value) (f : Fault) : Prop :=
  ∃ before s after, docs = before ++ s :: after ∧
    (∀ b ∈ before, accepts selector b = .ok false) ∧ accepts selector s = .ok true ∧
    StopsIn (fun b => ∃ answer, accepts selector b = .ok answer)
      (fun t => accepts selector t = .error f) after

theorem filter_append_eq_error_iff {before : List Value}
    (hbefore : ∀ b ∈ before, accepts selector b = .ok false) (docs : List Value) :
    filter selector (before ++ docs) = .error f ↔ filter selector docs = .error f := by
  induction before with
  | nil => rfl
  | cons b before ih =>
      rw [List.forall_mem_cons] at hbefore
      rw [List.cons_append, filter_cons_eq_error_iff hbefore.1, ih hbefore.2]

theorem failsAfterMatch_iff : FailsAfterMatch selector docs f ↔
    holdsForSome selector docs = .ok true ∧ filter selector docs = .error f := by
  rw [holdsForSome_eq_iff (r := .ok true) nofun]
  -- with the first match split off, the failure is one of the sources behind it
  have hrest : ∀ {before s after}, (∀ b ∈ before, accepts selector b = .ok false) →
      accepts selector s = .ok true → (filter selector (before ++ s :: after) = .error f ↔
        StopsIn (fun b => ∃ answer, accepts selector b = .ok answer)
          (fun t => accepts selector t = .error f) after) := fun hbefore hs => by
    rw [filter_append_eq_error_iff hbefore, filter_cons_eq_error_iff hs, filter_eq_error_iff]
  constructor
  · rintro ⟨before, s, after, rfl, hbefore, hs, hstops⟩
    exact ⟨⟨before, s, after, rfl, hbefore, hs⟩, (hrest hbefore hs).mpr hstops⟩
  · rintro ⟨⟨before, s, after, rfl, hbefore, hs⟩, h⟩
    exact ⟨before, s, after, rfl, hbefore, hs, (hrest hbefore hs).mp h⟩

end Selector

namespace Context

variable {x : Context} {f : Fault}

/-! ### Existence and count -/

theorem count_eq_map (x : Context) : x.count = x.matched.map List.length := by
  unfold count
  cases x.matched <;> rfl

theorem hasAny_of_count {n : Nat} (h : x.count = .ok n) : x.hasAny = .ok (decide (0 < n)) := by
  rw [count_eq_map] at h
  cases hmatched : x.matched with
  | error e =>
      rw [hmatched] at h
      cases h
  | ok found =>
      rw [hmatched] at h
      cases h
      rw [hasAny, Selector.holdsForSome_of_filter hmatched]
      cases found <;> rfl

theorem count_of_hasAny_false (h : x.hasAny = .ok false) : x.count = .ok 0 := by
  have hmatched : x.matched = .ok [] := Selector.filter_of_holdsForSome_false h
  rw [count_eq_map, hmatched]
  rfl

theorem count_eq_error_iff : x.count = .error f ↔ x.matched = .error f := by
  rw [count_eq_map, map_eq_error_iff]

theorem count_of_hasAny_error (h : x.hasAny = .error f) : x.count = .error f :=
  count_eq_error_iff.mpr (Selector.filter_of_holdsForSome_error h)

/-- Where the count fails and the question does not fail alike, something matches. -/
theorem hasAny_of_count_error (h : x.count = .error f) (hne : x.hasAny ≠ .error f) :
    x.hasAny = .ok true := by
  cases hany : x.hasAny with
  | error e =>
      rw [Except.error.inj (h.symm.trans (count_of_hasAny_error hany))] at hne
      exact absurd hany hne
  | ok answer =>
      cases answer with
      | true => rfl
      | false =>
          rw [count_of_hasAny_false hany] at h
          cases h

/-- Where the sources can be counted, something matches just when there are any, and nothing just
when there are none.  Where nothing matches they are none, and where the question fails, counting
fails alike.  So the question differs from the count only where matching fails after a match: there
it says that something matches, and counting fails. -/
theorem hasAny_agrees (x : Context) :
    (∀ n, x.count = .ok n →
      x.hasAny = .ok (decide (0 < n)) ∧ x.isEmpty = .ok (decide (n = 0))) ∧
    (x.hasAny = .ok false → x.count = .ok 0) ∧
    (∀ f, x.hasAny = .error f → x.count = .error f) ∧
    (∀ f, Selector.FailsAfterMatch x.criteria.selector x.criteria.documents f ↔
      x.hasAny = .ok true ∧ x.count = .error f) ∧
    (x.hasAny ≠ x.count.map (fun n => decide (0 < n)) ↔
      ∃ f, Selector.FailsAfterMatch x.criteria.selector x.criteria.documents f) := by
  have hfails : ∀ f, Selector.FailsAfterMatch x.criteria.selector x.criteria.documents f ↔
      x.hasAny = .ok true ∧ x.count = .error f := by
    intro f
    rw [count_eq_error_iff]
    exact Selector.failsAfterMatch_iff
  refine ⟨fun n hn => ⟨hasAny_of_count hn, ?_⟩, count_of_hasAny_false,
    fun f => count_of_hasAny_error, hfails, ?_⟩
  · unfold isEmpty
    rw [hasAny_of_count hn]
    cases n <;> rfl
  · simp only [hfails]
    cases hcount : x.count with
    | ok n =>
        refine iff_of_false (fun hne => hne (hasAny_of_count hcount)) ?_
        rintro ⟨f, -, hfault⟩
        cases hfault
    | error f =>
        show x.hasAny ≠ .error f ↔ _
        constructor
        · intro hne
          exact ⟨f, hasAny_of_count_error hcount hne, rfl⟩
        · rintro ⟨_, hany, -⟩ h
          rw [hany] at h
          cases h

/-- A record does not have the field null, a document has it, and another cannot be asked for it:
something matches and the count fails.  With the last document in front, both fail. -/
theorem hasAny_agrees_refused :
    let r : Value := .record 0 1 []
    let d : Value := .document [(.null, .text "x")]
    let e : Value := .document [(.text "a", .text "x")]
    let q : Dict := [(.null, .text "x")]
    let query : List Value → Context := fun docs =>
      (Criteria.empty.run [.documents (.list docs), .filter (.dict q) []]).context
    let f : Fault := .missingAttribute .null "split"
    (query [r, d]).hasAny = .ok true ∧ (query [r, d, e]).hasAny = .ok true ∧
      (query [r, d, e]).count = .error f ∧ (query [r, e, d]).hasAny = .error f ∧
      (query [r, e, d]).count = .error f := by
  intro r d e q query f
  have hr : Selector.accepts q r = .ok false := rfl
  have hd : Selector.accepts q d = .ok true := rfl
  have he : Selector.accepts q e = .error f := rfl
  have hafter : Selector.FailsAfterMatch q [r, d, e] f :=
    ⟨[r], d, [e], rfl, List.forall_mem_singleton.mpr hr, hd, [], e, [], rfl,
      List.forall_mem_nil _, he⟩
  have hone : (query [r, d]).count = .ok 1 := rfl
  have hrefused : (query [r, e, d]).hasAny = .error f := rfl
  obtain ⟨hcounted, -⟩ := hasAny_agrees (query [r, d])
  obtain ⟨-, -, -, hfails, -⟩ := hasAny_agrees (query [r, d, e])
  obtain ⟨-, -, herror, -⟩ := hasAny_agrees (query [r, e, d])
  obtain ⟨hany, hcount⟩ := (hfails f).mp hafter
  exact ⟨(hcounted 1 hone).1, hany, hcount, hrefused, herror f hrefused⟩

end Context
end RecordQuery
