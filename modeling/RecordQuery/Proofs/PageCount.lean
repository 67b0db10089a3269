import RecordQuery.Proofs.PageNumber
import RecordQuery.Proofs.Pages
import RecordQuery.Proofs.Rounding

/-! # Pages behind the last one

A page that holds integers has an integer for its number of pages: the ceiling of the total count
divided by the size, both of which may be of any size as long as a significand holds the count
(`totalPages_of_pos`).  The entries of the page are cut out of the result by exact arithmetic and
the number of pages comes from a rounded quotient, so the two have to be compared.  They agree
on whether the page lies behind the last one, unless the quotient is rounded to zero: then there is
no page at all for `outOfBounds`, and the first page has all the entries.  This is
`out_of_bounds_truthful_iff`, which also says when a page is shown in the first place. -/

namespace RecordQuery

/-! ### Operations on integers -/

theorem Position.before_of_finite (m n : Int) :
    (Position.mk 0 m).before ⟨0, n⟩ = decide (m < n) := by
  unfold before
  rw [decide_eq_false (Int.lt_irrefl 0), beq_self_eq_true, Bool.false_or, Bool.true_and]

theorem Number.lt_int (m n : Int) : Number.lt (.int m) (.int n) = decide (m < n) := by
  have hone : (0 : Int) < (Binary64.unitsOfOne : Int) :=
    Int.natCast_pos.mpr Binary64.unitsOfOne_pos
  show (Position.mk 0 (m * Binary64.unitsOfOne)).before ⟨0, n * Binary64.unitsOfOne⟩ = _
  rw [Position.before_of_finite, decide_eq_decide]
  exact Int.mul_lt_mul_right hone

namespace Value

theorem gt_int (m n : Int) : (int m).gt (.int n) = .ok (decide (n < m)) := by
  have hgt : (int m).gt (.int n) = .ok (Number.lt (.int n) (.int m)) := rfl
  rw [hgt, Number.lt_int]

theorem ceilDiv_int {n d : Nat} (hd : 0 < d) (hn : n < 2 ^ 53) :
    (int n).ceilDiv (.int d) = .ok (.int (Binary64.ceilQuotient n d)) := by
  have hne : (d : Int) ≠ 0 := by omega
  have hdiv : Number.div (.int n) (.int d) =
      .ok (.finite false (Binary64.roundUnits (n * Binary64.unitsOfOne) d)) := by
    rw [Number.div, if_neg hne, Binary64.ofIntQuotient?_eq hd hn]
  have hceil : (int n).ceilDiv (.int d) = ofArithmetic (do
      return .int (← (← Number.div (.int n) (.int d)).ceil)) := rfl
  rw [hceil, hdiv]
  show ofArithmetic (do
    return .int (← (Binary64.finite false (Binary64.roundUnits _ _)).ceil)) = _
  rw [Binary64.ceil_quotient hd hn]
  rfl

end Value

/-! ### Pages that hold integers -/

namespace Page

variable {entries number : Value} {size total : Nat}

theorem totalPages_of_zero (total : Value) :
    (Page.mk entries number (.int 0) total).totalPages = .ok (.int 0) := rfl

theorem totalPages_of_pos (hs : 0 < size) (ht : total < 2 ^ 53) :
    (Page.mk entries number (.int size) (.int total)).totalPages =
      .ok (.int (Binary64.ceilQuotient total size)) := by
  have htruthy : (Value.int size).truthy = true := by
    show (!((size : Int) == 0)) = true
    simp
    omega
  unfold totalPages
  rw [if_pos htruthy]
  exact Value.ceilDiv_int hs ht

theorem outOfBounds_of_pos (number : Int) (hs : 0 < size) (ht : total < 2 ^ 53) :
    (Page.mk entries (.int number) (.int size) (.int total)).outOfBounds =
      .ok (decide ((Binary64.ceilQuotient total size : Int) < number)) := by
  unfold outOfBounds
  rw [totalPages_of_pos hs ht]
  exact Value.gt_int number _

/-- A positive page number lies beyond the counted pages just when no elements are left for it,
except for the first page where the quotient is rounded to zero. -/
theorem ceilQuotient_lt_iff (hs : 0 < size) {number : Int} (hn : 1 ≤ number) :
    ((Binary64.ceilQuotient total size : Int) < number ↔ (total : Int) ≤ (number - 1) * size) ↔
      ¬(number = 1 ∧ 0 < total ∧ 2 * (total * Binary64.unitsOfOne) ≤ size) := by
  obtain ⟨i, rfl⟩ := Context.exists_nat_succ hn
  have hleft : ((i : Int) + 1 - 1) * size = ((i * size : Nat) : Int) := by
    rw [Int.add_sub_cancel, Int.natCast_mul]
  have hbeyond : (Binary64.ceilQuotient total size : Int) < (i : Int) + 1 ↔
      Binary64.ceilQuotient total size ≤ i := by omega
  rw [hleft, hbeyond, Int.ofNat_le]
  unfold Binary64.ceilQuotient
  by_cases hhalf : size < 2 * (total * Binary64.unitsOfOne)
  · rw [if_pos hhalf, ceilDiv_le_iff_le_mul hs, Nat.mul_comm]
    exact iff_of_true Iff.rfl fun h => absurd h.2.2 (Nat.not_le.mpr hhalf)
  · rw [if_neg hhalf]
    have htotal : total ≤ total * Binary64.unitsOfOne :=
      Nat.le_mul_of_pos_right total Binary64.unitsOfOne_pos
    rcases Nat.eq_zero_or_pos i with rfl | hi
    · -- for the first page all elements are left
      rw [Nat.zero_mul]
      omega
    · have hsize : size ≤ i * size := Nat.le_mul_of_pos_left size hi
      refine iff_of_true (iff_of_true (Nat.zero_le i) (by omega)) fun h => ?_
      omega

end Page

namespace Context

variable {x : Context}

/-- A page of a positive size says that it lies behind the last one just when it has no entries,
with one exception: the first page of a size so large that the count divided by it is rounded to
zero.  There is a page whenever its number and its size are short enough to be written. -/
theorem out_of_bounds_truthful_iff (hr : x.criteria.Reachable) (hc : x.criteria.WellPosed)
    {f : List Value → List Value} (hf : x.ArrangesBy f)
    (hlength : (f x.criteria.selection).length = x.criteria.selection.length)
    (hsize : 1 ≤ x.perPage) (hfew : x.criteria.selection.length < 2 ^ 53) :
    (x.ReportsPage →
      ∃ (page : Page) (entries : List Value) (total : Nat) (beyond : Bool),
        x.paginate.outcome = .ok page ∧ page.entries = .list entries ∧ x.count = .ok total ∧
        page.outOfBounds = .ok beyond ∧
        ((beyond = true ↔ entries = []) ↔
          ¬(x.page = 1 ∧ 0 < total ∧
            ((2 * (total * Binary64.unitsOfOne) : Nat) : Int) ≤ x.perPage))) ∧
    (¬x.ReportsPage → x.paginate = .silent (.error .integerTooLong)) := by
  refine ⟨fun hreports => ?_, paginate_eq_silent hc hf⟩
  have hnumber := (page_of_valid hr.valid.options).2
  have hempty := (tiles_pageWindow (f x.criteria.selection) hsize).empty_iff x.page hnumber
  obtain ⟨size, hperPage⟩ := Int.eq_ofNat_of_zero_le (Int.le_trans Int.one_nonneg hsize)
  have hs : 0 < size := by omega
  refine ⟨_, pageWindow (f x.criteria.selection) x.page x.perPage, x.criteria.selection.length,
    decide ((Binary64.ceilQuotient x.criteria.selection.length size : Int) < x.page),
    paginate_eq_page hc hf hreports, rfl, count_eq hc, ?_, ?_⟩
  · rw [hperPage]
    exact Page.outOfBounds_of_pos x.page hs hfew
  · rw [hempty, hlength, decide_eq_true_iff, hperPage, Int.ofNat_le]
    exact Page.ceilQuotient_lt_iff hs hnumber

/-- The third page of two of three sources, arranged from the second one on, has no entries and
says that it lies behind the last one. -/
theorem out_of_bounds_truthful_third :
    let a : Value := .document [(.text "n", .text "1")]
    let x : Context := (Criteria.empty.run [.documents (.list [a, .record 0 1 [], a]),
      .orderBy (.arrangement ⟨0, .rotate 1⟩), .paginate (.int 3) (.int 2)]).context
    x.criteria.WellPosed ∧ x.perPage = 2 ∧ x.page = 3 ∧ x.criteria.selection.length = 3 ∧
      ∃ (page : Page) (entries : List Value) (beyond : Bool), x.paginate.outcome = .ok page ∧
        page.entries = .list entries ∧ page.outOfBounds = .ok beyond ∧
        (beyond = true ↔ entries = []) ∧ entries = [] := by
  intro a x
  have hf : x.ArrangesBy fun docs =>
      Window.slice docs 1 none ++ Window.slice docs 0 (some 1) := fun docs => rfl
  have hc : x.criteria.WellPosed := by decide +kernel
  have hnumber : x.page = 3 := by with_unfolding_all rfl
  have hcount : x.criteria.selection.length = 3 := by with_unfolding_all rfl
  obtain ⟨hshown, -⟩ := out_of_bounds_truthful_iff (x := x) (Criteria.reachable_empty.run _) hc hf
    (by with_unfolding_all rfl) (by decide +kernel) (by rw [hcount]; decide)
  obtain ⟨page, entries, total, beyond, hpage, hentries, -, hbeyond, hiff⟩ :=
    hshown (by decide +kernel)
  have htruthful := hiff.mpr fun h => by
    rw [hnumber] at h
    exact absurd h.1 (by decide)
  have hnone : page.entries = .list [] := by
    have hoc : x.paginate.outcome = .ok ⟨.list [], .int 3, .int 2, .int 3⟩ := by
      with_unfolding_all rfl
    rw [hoc] at hpage
    cases hpage
    rfl
  rw [hnone] at hentries
  refine ⟨hc, by with_unfolding_all rfl, hnumber, hcount, page, entries, beyond, hpage, ?_,
    hbeyond, htruthful, ?_⟩
  · rw [hnone, hentries]
  · cases hentries
    rfl

/-- The query over one source that shows pages of one size. -/
def single (s : Value) (size : Nat) : Context :=
  Criteria.context { Criteria.empty with
    documents := [s], options := { Options.empty with limit := some (size : Int) } }

theorem single_reachable (s : Value) {size : Nat} (hs : 0 < size) :
    (single s size).criteria.Reachable := by
  have hone : (1 : Int) ≤ size := by omega
  have hdocs := Criteria.reachable_empty.advance (.documents (.list [s]))
  exact hdocs.of_apply (.limit (.int size)) (Criteria.limit_int _ hone)

/-- The only source is the only entry of the first page, whatever the size of the page; but from
twice one in units on, no page is counted. -/
theorem single_out_of_bounds {s : Value} (hfields : s.hasFields = true) {size : Nat}
    (hsize : 2 * Binary64.unitsOfOne ≤ size) (hshort : size < Text.integerBound) :
    (single s size).criteria.Reachable ∧ (single s size).criteria.WellPosed ∧
      (single s size).criteria.options.sort = none ∧ 1 ≤ (single s size).perPage ∧
      (single s size).count = .ok 1 ∧ ∃ page, (single s size).paginate.outcome = .ok page ∧
        page.entries = .list [s] ∧ page.outOfBounds = .ok true := by
  have hs : 0 < size := by
    have := Binary64.unitsOfOne_pos
    omega
  have hc : (single s size).criteria.WellPosed :=
    ⟨fun t ht => by rw [List.mem_singleton.mp ht]; exact hfields, fun e he => nomatch he⟩
  have hf : (single s size).ArrangesBy id := fun docs => rfl
  have hperPage : (single s size).perPage = size := perPage_of_limit rfl (by omega)
  have hone : (1 : Int).natAbs < Text.integerBound := by decide +kernel
  have hreports : (single s size).ReportsPage := (reportsPage_iff rfl hperPage).mpr ⟨hone, hshort⟩
  have hzero : Binary64.ceilQuotient 1 size = 0 := by
    unfold Binary64.ceilQuotient
    rw [Nat.one_mul, if_neg (Nat.not_lt.mpr hsize)]
  refine ⟨single_reachable s hs, hc, rfl, by omega, count_eq hc, _,
    paginate_eq_page hc hf hreports, ?_, ?_⟩
  · rw [hperPage]
    show Value.list (pageWindow [s] ((0 : Nat) + 1) size) = _
    rw [pageWindow_succ]
    unfold Window.part
    rw [Nat.zero_mul, List.drop_zero, List.take_of_length_le hs]
  · rw [hperPage]
    show (Page.mk _ (.int 1) (.int size) (.int (1 : Nat))).outOfBounds = _
    rw [Page.outOfBounds_of_pos 1 hs (by decide), hzero]
    rfl

/-- The first page of `2 ^ 1075` sources has the only source for its entries, and yet says that it
lies behind the last one. -/
theorem vast_page_out_of_bounds :
    let a : Value := .document [(.text "n", .text "1")]
    let x : Context := single a (2 * Binary64.unitsOfOne)
    x.criteria.Reachable ∧ x.criteria.WellPosed ∧ x.criteria.options.sort = none ∧
      1 ≤ x.perPage ∧ x.count = .ok 1 ∧ ∃ page, x.paginate.outcome = .ok page ∧
        page.entries = .list [a] ∧ page.outOfBounds = .ok true :=
  single_out_of_bounds rfl (Nat.le_refl _) (by decide +kernel)

end Context
end RecordQuery
