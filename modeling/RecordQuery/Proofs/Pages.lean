import RecordQuery.Paging
import RecordQuery.Proofs.Retrieval

/-! # Pages tile a result

Pages of one size, numbered from one, cut a list into parts (`Window.part`): the first `k` of them
hold its first `k * size` elements (`flatten_parts`), so enough of them hold the whole list in
order, each element once.  A query shows these parts when it is asked for page after page, and each
is what it retrieves when it is told to skip the pages before and to stop after one; whatever it
skipped or stopped at itself does not matter.

A page is shown if it can be reported, which takes that its number and its size are short enough to
be written (`Context.ReportsPage`).  Otherwise there is neither a page nor a report.  The main
statement is `pages_tile`. -/

namespace RecordQuery

/-! ### Parts of a list -/

namespace Window

variable {α : Type} (xs : List α) {size : Nat}

/-- The part with a number, counted from zero, of a list that is cut into parts of one size. -/
def part (size number : Nat) : List α := (xs.drop (number * size)).take size

/-- The first parts hold the first elements, in order. -/
theorem flatten_parts (size count : Nat) :
    ((List.range count).map (part xs size)).flatten = xs.take (count * size) := by
  induction count with
  | zero => simp
  | succ count ih =>
      rw [List.range_succ, List.map_append, List.flatten_append, ih, Nat.succ_mul, List.take_add]
      simp [part]

theorem length_part (size number : Nat) :
    (part xs size number).length = min size (xs.length - number * size) := by
  unfold part
  rw [List.length_take, List.length_drop]

theorem part_eq_nil_iff (hs : 0 < size) (number : Nat) :
    part xs size number = [] ↔ xs.length ≤ number * size := by
  rw [← List.length_eq_zero_iff, length_part]
  omega

/-- Every part before one that is not empty is full. -/
theorem length_part_of_lt (hs : 0 < size) {number later : Nat} (h : number < later)
    (hlater : part xs size later ≠ []) : (part xs size number).length = size := by
  rw [Ne, part_eq_nil_iff xs hs] at hlater
  have hnext : (number + 1) * size ≤ later * size := Nat.mul_le_mul_right size h
  rw [Nat.succ_mul] at hnext
  rw [length_part]
  omega

end Window

/-! ### Calls with integers -/

theorem Options.checkCount_int (name explanation : String) {least n : Int} (h : least ≤ n) :
    checkCount name explanation least (.int n) = .ok (some n) := by
  show (if least ≤ n then _ else _) = _
  rw [if_pos h]

namespace Criteria

theorem skip_int (c : Criteria) {n : Int} (h : 0 ≤ n) :
    c.skip (.int n) = .ok { c with options := { c.options with skip := some n } } := by
  unfold skip Options.checkSkip
  rw [Options.checkCount_int _ _ h]
  rfl

theorem limit_int (c : Criteria) {n : Int} (h : 1 ≤ n) :
    c.limit (.int n) = .ok { c with options := { c.options with limit := some n } } := by
  unfold limit Options.checkLimit
  rw [Options.checkCount_int _ _ h]
  rfl

theorem paginate_int (c : Criteria) (page : Int) {n : Int} (h : 1 ≤ n) :
    c.paginate (.int page) (.int n) =
      .ok { c with extras := ⟨some page⟩, options := { c.options with limit := some n } } := by
  show limit { c with extras := ⟨some page⟩ } (.int n) = _
  rw [limit_int _ h]

end Criteria

/-! ### Pages of a query -/

namespace Context

variable {x : Context}

theorem page_of_positive {number : Int} (h : x.criteria.extras.page = some number)
    (hn : 0 < number) : x.page = number := by
  unfold page
  rw [h]
  exact if_pos hn

theorem perPage_of_limit {size : Int} (h : x.criteria.options.limit = some size)
    (hs : size ≠ 0) : x.perPage = size := by
  unfold perPage
  rw [h]
  exact if_neg hs

/-- Whether the number and the size of the page are short enough to be written. -/
def ReportsPage (x : Context) : Prop :=
  x.page.natAbs < Text.integerBound ∧ x.perPage.natAbs < Text.integerBound

instance (x : Context) : Decidable x.ReportsPage := inferInstanceAs (Decidable (_ ∧ _))

theorem reportsPage_iff {number size : Int} (hnumber : x.page = number)
    (hsize : x.perPage = size) :
    x.ReportsPage ↔ number.natAbs < Text.integerBound ∧ size.natAbs < Text.integerBound := by
  unfold ReportsPage
  rw [hnumber, hsize]

/-- A page is reported before it is shown. -/
theorem paginate_eq_report (hc : x.criteria.WellPosed) {f : List Value → List Value}
    (hf : x.ArrangesBy f) :
    let entries := pageWindow (f x.criteria.selection) x.page x.perPage
    let total := x.criteria.selection.length
    x.paginate = .report .debug
      (do return "Paginated query: page " ++ (← Text.ofInt? x.page) ++ ", per_page " ++
        (← Text.ofInt? x.perPage) ++ ", " ++ Nat.repr entries.length ++ " of " ++
        Nat.repr total ++ " matches")
      (.ok ⟨.list entries, .int x.page, .int x.perPage, .int total⟩) := by
  unfold paginate
  rw [matched_eq hc]
  simp only [bind, Except.bind]
  rw [hf]
  rfl

/-- The page of a query over sources that are arranged by a function. -/
theorem paginate_eq_page (hc : x.criteria.WellPosed) {f : List Value → List Value}
    (hf : x.ArrangesBy f) (hr : x.ReportsPage) : x.paginate.outcome =
      .ok ⟨.list (pageWindow (f x.criteria.selection) x.page x.perPage), .int x.page,
        .int x.perPage, .int x.criteria.selection.length⟩ := by
  rw [paginate_eq_report hc hf, Text.ofInt?_of_lt hr.1, Text.ofInt?_of_lt hr.2]
  rfl

/-- A number or a size that cannot be written leaves no page, and no report. -/
theorem paginate_eq_silent (hc : x.criteria.WellPosed) {f : List Value → List Value}
    (hf : x.ArrangesBy f) (hr : ¬x.ReportsPage) :
    x.paginate = .silent (.error .integerTooLong) := by
  rw [paginate_eq_report hc hf]
  by_cases hnumber : x.page.natAbs < Text.integerBound
  · have hsize : ¬x.perPage.natAbs < Text.integerBound := fun hsize => hr ⟨hnumber, hsize⟩
    rw [Text.ofInt?_of_lt hnumber, Text.ofInt?_of_not_lt hsize]
    rfl
  · rw [Text.ofInt?_of_not_lt hnumber]
    rfl

theorem pageWindow_succ (docs : List Value) (number size : Nat) :
    pageWindow docs (number + 1) size = Window.part docs size number := by
  have hstart : ((number : Int) + 1 - 1) * size = ((number * size : Nat) : Int) := by
    rw [Int.add_sub_cancel, Int.natCast_mul]
  unfold pageWindow
  rw [hstart, window_eq_take (Int.natCast_nonneg _) (Int.natCast_nonneg _), Int.toNat_natCast,
    Int.toNat_natCast]
  rfl

/-- Whether lists with numbers from one on are the pages of a list: enough of them hold it in
order, every page before one that is not empty is full, and the pages behind its end are empty. -/
structure Tiles (pages : Int → List Value) (size : Int) (docs : List Value) : Prop where
  flatten : ∀ count : Nat, (docs.length : Int) ≤ count * size →
    ((List.range count).map fun i : Nat => pages (i + 1)).flatten = docs
  full : ∀ number later, 1 ≤ number → number < later → pages later ≠ [] →
    ((pages number).length : Int) = size
  empty_iff : ∀ number, 1 ≤ number → (pages number = [] ↔ docs.length ≤ (number - 1) * size)

/-- A positive page number is a successor. -/
theorem exists_nat_succ {number : Int} (h : 1 ≤ number) : ∃ i : Nat, number = i + 1 :=
  ⟨(number - 1).toNat, by omega⟩

theorem tiles_pageWindow (docs : List Value) {size : Int} (hs : 1 ≤ size) :
    Tiles (pageWindow docs · size) size docs := by
  obtain ⟨s, rfl⟩ := Int.eq_ofNat_of_zero_le (Int.le_trans Int.one_nonneg hs)
  have hpos : 0 < s := by omega
  constructor
  · intro count hcount
    have hle : docs.length ≤ count * s := by
      rw [← Int.natCast_mul] at hcount
      exact Int.ofNat_le.mp hcount
    simp only [pageWindow_succ]
    rw [Window.flatten_parts, List.take_of_length_le hle]
  · intro number later hn hlt hlater
    obtain ⟨i, rfl⟩ := exists_nat_succ hn
    obtain ⟨j, rfl⟩ := exists_nat_succ (show 1 ≤ later by omega)
    rw [pageWindow_succ] at hlater ⊢
    rw [Window.length_part_of_lt docs hpos (by omega) hlater]
  · intro number hn
    obtain ⟨i, rfl⟩ := exists_nat_succ hn
    rw [pageWindow_succ, Window.part_eq_nil_iff docs hpos, Int.add_sub_cancel, ← Int.natCast_mul]
    exact Int.ofNat_le.symm

/-- Asked for a page by number and size, a query shows what it retrieves when it skips the pages
before it and is limited to the size, along with the number of matched sources, if both are short
enough to be written, and otherwise fails for that and reports nothing.  What is retrieved tiles the
matched sources as arranged. -/
theorem pages_tile (hc : x.criteria.WellPosed) {f : List Value → List Value}
    (hf : x.ArrangesBy f) {size : Int} (hs : 1 ≤ size) :
    ∃ (total : Nat) (pages : Int → List Value), x.count = .ok total ∧
      (∀ number, 1 ≤ number → ∃ paged windowed,
        x.criteria.paginate (.int number) (.int size) = .ok paged ∧
        (x.criteria.skip (.int ((number - 1) * size)) >>= (·.limit (.int size))) = .ok windowed ∧
        ({ x with criteria := windowed } : Context).execute.outcome = .ok (pages number) ∧
        (number.natAbs < Text.integerBound ∧ size.natAbs < Text.integerBound →
          ({ x with criteria := paged } : Context).paginate.outcome =
            .ok ⟨.list (pages number), .int number, .int size, .int total⟩) ∧
        (¬(number.natAbs < Text.integerBound ∧ size.natAbs < Text.integerBound) →
          ({ x with criteria := paged } : Context).paginate = .silent (.error .integerTooLong))) ∧
      x.arranged = .ok (f x.criteria.selection) ∧
      Tiles pages size (f x.criteria.selection) := by
  refine ⟨x.criteria.selection.length, (pageWindow (f x.criteria.selection) · size), count_eq hc,
    ?_, arranged_eq_ok hc hf, tiles_pageWindow _ hs⟩
  intro number hn
  have hskip : 0 ≤ (number - 1) * size := Int.mul_nonneg (by omega) (by omega)
  let paged : Criteria := { x.criteria with
    extras := ⟨some number⟩, options := { x.criteria.options with limit := some size } }
  let windowed : Criteria := { x.criteria with
    options := { x.criteria.options with skip := some ((number - 1) * size), limit := some size } }
  -- neither the matched sources nor their arrangement look at pages or limits
  have hpaged : paged.WellPosed := ⟨hc.sources, hc.names⟩
  have hwindowed : windowed.WellPosed := ⟨hc.sources, hc.names⟩
  have hpages : ({ x with criteria := paged } : Context).ArrangesBy f := hf
  have hwindows : ({ x with criteria := windowed } : Context).ArrangesBy f := hf
  have hnumber : ({ x with criteria := paged } : Context).page = number :=
    page_of_positive rfl (by omega)
  have hsize : ({ x with criteria := paged } : Context).perPage = size :=
    perPage_of_limit rfl (by omega)
  have hreports := reportsPage_iff hnumber hsize
  refine ⟨paged, windowed, Criteria.paginate_int _ _ hs, ?_, ?_, ?_, ?_⟩
  · rw [Criteria.skip_int _ hskip]
    exact Criteria.limit_int _ hs
  · rw [execute_outcome, arranged_eq_ok hwindowed hwindows]
    rfl
  · intro hwritten
    rw [paginate_eq_page hpaged hpages (hreports.mpr hwritten), hnumber, hsize]
    rfl
  · exact fun hlong => paginate_eq_silent hpaged hpages (mt hreports.mp hlong)

/-- Pages of two of three sources that are arranged from the second one on, whatever the query
itself skips and is limited to: the second page shows the first source alone. -/
theorem pages_tile_rotated :
    let a : Value := .document [(.text "n", .text "1")]
    let b : Value := .document [(.text "n", .text "2")]
    let c : Value := .record 0 1 []
    let x : Context := (Criteria.empty.run [.documents (.list [a, b, c]),
      .orderBy (.arrangement ⟨0, .rotate 1⟩), .skip (.int 2), .limit (.int 1)]).context
    ∃ pages, Tiles pages 2 [b, c, a] ∧ pages 2 = [a] ∧
      ∃ windowed, (x.criteria.skip (.int 2) >>= (·.limit (.int 2))) = .ok windowed ∧
        ({ x with criteria := windowed } : Context).execute.outcome = .ok [a] := by
  intro a b c x
  have hf : x.ArrangesBy fun docs =>
      Window.slice docs 1 none ++ Window.slice docs 0 (some 1) := fun docs => rfl
  obtain ⟨total, pages, -, hpages, harranged, htiles⟩ :=
    pages_tile (x := x) (by decide +kernel) hf (by decide : (1 : Int) ≤ 2)
  obtain ⟨paged, windowed, hp, hw, hexecute, hshown, -⟩ := hpages 2 (by decide)
  have hpage := hshown (by decide +kernel)
  cases hp
  have hsecond : Except.ok (Page.mk (.list (pages 2)) (.int 2) (.int 2) (.int total)) =
      Except.ok (Page.mk (.list [a]) (.int 2) (.int 2) (.int 3)) :=
    hpage.symm.trans (by with_unfolding_all rfl)
  have hentries : pages 2 = [a] := by
    simp only [Except.ok.injEq, Page.mk.injEq, Value.list.injEq] at hsecond
    exact hsecond.1
  rw [hentries] at hexecute
  exact ⟨pages, htiles, hentries, windowed, hw, hexecute⟩

/-- The first page of a size that is too long to be written is not shown, although the query limited
to this size retrieves its only source. -/
theorem long_page_not_shown :
    let a : Value := .document [(.text "n", .text "1")]
    let x : Context := (Criteria.empty.run [.documents (.list [a])]).context
    let size : Int := Text.integerBound
    x.criteria.Reachable ∧ x.criteria.WellPosed ∧ x.criteria.options.sort = none ∧ 1 ≤ size ∧
      ∃ paged windowed, x.criteria.paginate (.int 1) (.int size) = .ok paged ∧
        (x.criteria.skip (.int 0) >>= (·.limit (.int size))) = .ok windowed ∧
        windowed.context.execute.outcome = .ok [a] ∧
        paged.context.paginate.outcome = .error .integerTooLong := by
  intro a x size
  have hone : 1 ≤ size := Int.ofNat_le.mpr Text.integerBound_pos
  have hc : x.criteria.WellPosed := by decide +kernel
  let paged : Criteria := { x.criteria with
    extras := ⟨some 1⟩, options := { x.criteria.options with limit := some size } }
  let windowed : Criteria := { x.criteria with
    options := { x.criteria.options with skip := some 0, limit := some size } }
  have hpaged : paged.context.criteria.WellPosed := ⟨hc.sources, hc.names⟩
  have hwindowed : windowed.context.criteria.WellPosed := ⟨hc.sources, hc.names⟩
  have hsize : paged.context.perPage = size := perPage_of_limit rfl (by omega)
  have hlong : ¬paged.context.ReportsPage := fun h =>
    Text.not_integerBound_lt ((reportsPage_iff rfl hsize).mp h).2
  refine ⟨Criteria.reachable_empty.run _, hc, rfl, hone, paged, windowed,
    Criteria.paginate_int _ _ hone, ?_, ?_, ?_⟩
  · rw [Criteria.skip_int _ (Int.le_refl 0)]
    exact Criteria.limit_int _ hone
  · rw [execute_outcome, arranged_eq_ok hwindowed (f := id) fun _ => rfl]
    show Except.ok (window [a] 0 (some size)) = _
    rw [window_eq_take (Int.le_refl 0) (by omega), List.take_of_length_le]
    · rfl
    · exact (Int.toNat_le_toNat hone : (1 : Int).toNat ≤ size.toNat)
  · rw [paginate_eq_silent hpaged (f := id) (fun _ => rfl) hlong]
    rfl

end Context
end RecordQuery
