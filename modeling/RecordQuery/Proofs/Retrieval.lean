import RecordQuery.Proofs.Lookup
import RecordQuery.Proofs.Reachable
import RecordQuery.Proofs.Window

/-! # What a query retrieves

`Options.cut` says what the options leave of a list without counting anything from its end: it drops
the elements to skip and takes of the rest as many as the limit allows.  Options that have passed
their checks cut as `execute` slices (`window_eq_cut`), so a query that builder calls reach
retrieves by `cut`, whatever function its sources are arranged by: the function may drop sources or
give them more than once.  This is `retrieves_selection`, for all ways to retrieve together. -/

namespace RecordQuery

/-! ### What the options leave -/

namespace Options

variable {α : Type} {o : Options}

/-- The elements after those to skip, as far as the limit goes. -/
def cut (o : Options) (xs : List α) : List α :=
  let rest := xs.drop (o.skip.getD 0).toNat
  match o.limit with
  | none => rest
  | some n => rest.take n.toNat

theorem cut_unlimited (h : o.limit = none) (xs : List α) :
    o.cut xs = xs.drop (o.skip.getD 0).toNat := by
  unfold cut
  rw [h]

theorem cut_limited {n : Int} (h : o.limit = some n) (xs : List α) :
    o.cut xs = (xs.drop (o.skip.getD 0).toNat).take n.toNat := by
  unfold cut
  rw [h]

/-- What is left stands together in the list. -/
theorem cut_isInfix (xs : List α) : o.cut xs <:+: xs := by
  have hdrop : xs.drop (o.skip.getD 0).toNat <:+: xs := (List.drop_suffix _ xs).isInfix
  cases h : o.limit with
  | none =>
      rw [cut_unlimited h]
      exact hdrop
  | some n =>
      rw [cut_limited h]
      exact (List.take_prefix _ _).isInfix.trans hdrop

theorem Valid.getD_skip_nonneg (hv : o.Valid) : 0 ≤ o.skip.getD 0 := by
  cases h : o.skip with
  | none => exact Int.le_refl 0
  | some n => exact hv.skip_nonneg n h

theorem Valid.length_cut_unlimited (hv : o.Valid) (h : o.limit = none) (xs : List α) :
    ((o.cut xs).length : Int) = max 0 (xs.length - o.skip.getD 0) := by
  have hskip := hv.getD_skip_nonneg
  rw [cut_unlimited h, List.length_drop]
  omega

theorem Valid.length_cut_limited (hv : o.Valid) {n : Int} (h : o.limit = some n) (xs : List α) :
    ((o.cut xs).length : Int) = min n (max 0 (xs.length - o.skip.getD 0)) := by
  have hskip := hv.getD_skip_nonneg
  have hn := hv.limit_pos n h
  rw [cut_limited h, List.length_take, List.length_drop]
  omega

end Options

namespace Context

variable {x : Context}

theorem window_eq_cut {o : Options} (hv : o.Valid) (docs : List Value) :
    window docs (o.skip.getD 0) o.limit = o.cut docs := by
  have hskip := hv.getD_skip_nonneg
  cases h : o.limit with
  | none => rw [window_eq_drop hskip, Options.cut_unlimited h]
  | some n =>
      have hn := hv.limit_pos n h
      rw [window_eq_take hskip (Int.le_of_lt hn), Options.cut_limited h]

/-! ### Retrieval -/

/-- Whether the sources are arranged by a function, which fails for no list. -/
def ArrangesBy (x : Context) (f : List Value → List Value) : Prop :=
  ∀ docs, x.arrange docs = .ok (f docs)

theorem ArrangesBy.eq_self {f : List Value → List Value} (hf : x.ArrangesBy f)
    (h : x.criteria.options.sort = none) (docs : List Value) : f docs = docs := by
  have hdocs := hf docs
  rw [arrange_of_unarranged h] at hdocs
  exact (Except.ok.inj hdocs).symm

/-- Whether a query matches the given sources and retrieves from them as arranged. -/
structure Retrieves (x : Context) (docs arranged : List Value) : Prop where
  matched : x.matched = .ok docs
  count : x.count = .ok docs.length
  execute : x.execute.outcome = .ok (x.criteria.options.cut arranged)
  iterate : ∀ (σ : Type) (visit : σ → Value → σ) (start : σ),
    (x.iterate visit start).outcome = .ok ((x.criteria.options.cut arranged).foldl visit start)
  first : x.first = .ok arranged.head?
  one : x.one = .ok arranged.head?
  last : x.last = .ok arranged.getLast?

theorem arranged_eq_ok (hc : x.criteria.WellPosed) {f : List Value → List Value}
    (hf : x.ArrangesBy f) : x.arranged = .ok (f x.criteria.selection) := by
  rw [arranged_eq hc, hf]

theorem execute_eq_cut (hv : x.criteria.options.Valid) (hc : x.criteria.WellPosed)
    {f : List Value → List Value} (hf : x.ArrangesBy f) :
    x.execute.outcome = .ok (x.criteria.options.cut (f x.criteria.selection)) := by
  rw [execute_outcome, arranged_eq_ok hc hf]
  show Except.ok (window _ _ _) = _
  rw [window_eq_cut hv]

theorem iterate_outcome {σ : Type} (x : Context) (visit : σ → Value → σ) (start : σ) :
    (x.iterate visit start).outcome =
      x.execute.outcome.map fun results => results.foldl visit start := rfl

theorem retrieves (hv : x.criteria.options.Valid) (hc : x.criteria.WellPosed)
    {f : List Value → List Value} (hf : x.ArrangesBy f) :
    x.Retrieves x.criteria.selection (f x.criteria.selection) := by
  have harranged := arranged_eq_ok hc hf
  have hfirst : x.first = .ok (f x.criteria.selection).head? := by
    unfold first
    rw [harranged]
    rfl
  constructor
  · exact matched_eq hc
  · exact count_eq hc
  · exact execute_eq_cut hv hc hf
  · intro σ visit start
    rw [iterate_outcome, execute_eq_cut hv hc hf]
    rfl
  · exact hfirst
  · exact hfirst
  · unfold last
    rw [harranged]
    rfl

/-- A query that calls reach retrieves what its options leave of the matched sources as arranged,
and never counts from the end of a list.  Without an arrangement this is a segment of the matched
sources; with one that keeps their number, the options alone say how many there are. -/
theorem retrieves_selection (hr : x.criteria.Reachable) (hc : x.criteria.WellPosed)
    {f : List Value → List Value} (hf : x.ArrangesBy f) :
    (∀ s ∈ x.criteria.documents, Selector.accepts x.criteria.selector s =
      .ok (Selector.admits x.criteria.selector s)) ∧
    x.criteria.selection.Sublist x.criteria.documents ∧
    x.Retrieves x.criteria.selection (f x.criteria.selection) ∧
    (0 ≤ x.criteria.options.skip.getD 0 ∧
      ∀ n, x.criteria.options.limit = some n → 0 ≤ x.criteria.options.skip.getD 0 + n) ∧
    (x.criteria.options.sort = none → f x.criteria.selection = x.criteria.selection ∧
      x.criteria.options.cut (f x.criteria.selection) <:+: x.criteria.selection) ∧
    ((f x.criteria.selection).length = x.criteria.selection.length →
      (x.criteria.options.limit = none →
        ((x.criteria.options.cut (f x.criteria.selection)).length : Int) =
          max 0 (x.criteria.selection.length - x.criteria.options.skip.getD 0)) ∧
      ∀ n, x.criteria.options.limit = some n →
        ((x.criteria.options.cut (f x.criteria.selection)).length : Int) =
          min n (max 0 (x.criteria.selection.length - x.criteria.options.skip.getD 0))) := by
  have hv := hr.valid.options
  have hskip := hv.getD_skip_nonneg
  refine ⟨fun s hs => Selector.accepts_eq (hc.sources s hs) hc.names, List.filter_sublist,
    retrieves hv hc hf, ⟨hskip, ?_⟩, ?_, ?_⟩
  · intro n hn
    have := hv.limit_pos n hn
    omega
  · intro hsort
    have hself := hf.eq_self hsort x.criteria.selection
    rw [hself]
    exact ⟨rfl, Options.cut_isInfix _⟩
  · intro hlength
    constructor
    · intro hl
      rw [hv.length_cut_unlimited hl, hlength]
    · intro n hl
      rw [hv.length_cut_limited hl, hlength]

/-- Two of three sources match, are given twice over, and of these four the second and the third
are left. -/
theorem retrieves_selection_twice :
    let a : Value := .document [(.text "n", .text "1")]
    let b : Value := .record 0 1 [(.text "n", .text "1")]
    let x : Context := (Criteria.empty.run [.documents (.list [a, .record 1 1 [], b]),
      .filter (.dict [(.text "n", .text "1")]) [], .orderBy (.arrangement ⟨0, .twice⟩),
      .skip (.int 1), .limit (.int 2)]).context
    x.ArrangesBy (fun docs => docs ++ docs) ∧ x.Retrieves [a, b] [a, b, a, b] ∧
      x.criteria.options.cut [a, b, a, b] = [b, a] := by
  intro a b x
  have hf : x.ArrangesBy (fun docs => docs ++ docs) := fun docs => rfl
  have hretrieves := (retrieves_selection (x := x) (Criteria.reachable_empty.run _)
    (by decide +kernel) hf).2.2.1
  have hselection : x.criteria.selection = [a, b] := by with_unfolding_all rfl
  rw [hselection] at hretrieves
  exact ⟨hf, hretrieves, rfl⟩

end Context
end RecordQuery
