import RecordQuery.Proofs.PageNumber
import RecordQuery.Proofs.Pages

/-! # The page that skipping implies

A query that skips sources and has a limit, and is not asked for a page, still has one: the page of
the first source that it does not skip, among pages of the size of the limit (`page_implied`).  So
there are two windows of one arranged list, that of `execute`, which starts where the skipped
sources end, and that of the page, which starts at a multiple of the limit.  Where both cover a
position they show the same source, also where the list ends before them, and they are one window
when the limit divides the number of skipped sources.  This is `implied_page_agrees`.

The number of the page can have more digits than what is skipped and the limit.  Where it has too
many, the page cannot be reported and is not shown. -/

namespace RecordQuery

theorem Window.getElem?_drop_take {α : Type} (xs : List α) (start : Nat) {size j : Nat}
    (h : j < size) : ((xs.drop start).take size)[j]? = xs[start + j]? := by
  rw [List.getElem?_take_of_lt h, List.getElem?_drop]

namespace Context

variable {x : Context}

theorem page_implied {skip size : Nat} (hskip : x.criteria.options.skip = some (skip : Int))
    (hlimit : x.criteria.options.limit = some (size : Int)) (hs : 0 < size)
    (hpage : ∀ number, x.criteria.extras.page = some number → number ≤ 0) :
    x.page = (skip / size : Nat) + 1 := by
  have himplied : page.implied x = (skip / size : Nat) + 1 := by
    have hsize : (size : Int) ≠ 0 := by omega
    unfold page.implied
    rw [hskip, hlimit]
    show Int.fdiv ((skip : Int) + size) size = _
    rw [Int.fdiv_eq_ediv_of_nonneg _ (Int.natCast_nonneg size), Int.add_ediv_of_dvd_right
      (Int.dvd_refl _), Int.ediv_self hsize, Int.natCast_ediv]
  unfold page
  cases h : x.criteria.extras.page with
  | none => exact himplied
  | some number =>
      have hnumber := hpage number h
      show (if 0 < number then _ else _) = _
      rw [if_neg (by omega), himplied]

/-- The window that starts where the skipped sources end, and the page that holds its start, agree
where they overlap. -/
structure Overlap (docs results entries : List Value) (skip size number : Int) : Prop where
  /-- The first source that is not skipped stands on the page. -/
  first : ∀ s, results.head? = some s → entries[(skip - (number - 1) * size).toNat]? = some s
  /-- Both show what stands at a position that both cover. -/
  common : ∀ i : Nat, skip ≤ i → i < skip + size → (number - 1) * size ≤ i → i < number * size →
    results[(i - skip).toNat]? = docs[i]? ∧
    entries[(i - (number - 1) * size).toNat]? = docs[i]?
  /-- Pages that fit the skipped sources show the same. -/
  aligned : size ∣ skip → entries = results

/-- A window of a list and the page that its start lies on. -/
theorem overlap_windows (docs : List Value) (k : Nat) {n : Nat} (hn : 0 < n) :
    Overlap docs ((docs.drop k).take n) (pageWindow docs ((k / n : Nat) + 1) n) k n
      ((k / n : Nat) + 1) := by
  -- all positions as natural numbers
  have hstart : (((k / n : Nat) : Int) + 1 - 1) * n = ((k / n * n : Nat) : Int) := by
    rw [Int.add_sub_cancel, Int.natCast_mul]
  have hstop : (((k / n : Nat) : Int) + 1) * n = ((k / n * n + n : Nat) : Int) := by
    rw [Int.add_mul, Int.one_mul, Int.natCast_add, Int.natCast_mul]
  have hle : k / n * n ≤ k := Nat.div_mul_le_self k n
  have hlt : k < k / n * n + n := Nat.lt_div_mul_add hn
  have hentries : pageWindow docs ((k / n : Nat) + 1) n = (docs.drop (k / n * n)).take n :=
    pageWindow_succ docs _ n
  rw [hentries]
  constructor
  · intro s hs
    have hindex : ((k : Int) - (k / n * n : Nat)).toNat = k - k / n * n := by omega
    rw [List.head?_eq_getElem?, Window.getElem?_drop_take docs k hn, Nat.add_zero] at hs
    rw [hstart, hindex, Window.getElem?_drop_take docs _ (by omega), Nat.add_sub_cancel' hle, hs]
  · rw [hstart, hstop]
    intro i hki hik hsi his
    have hresult : ((i : Int) - k).toNat = i - k := by omega
    have hentry : ((i : Int) - (k / n * n : Nat)).toNat = i - k / n * n := by omega
    rw [hresult, hentry, Window.getElem?_drop_take docs k (by omega),
      Window.getElem?_drop_take docs _ (by omega), Nat.add_sub_cancel' (by omega),
      Nat.add_sub_cancel' (by omega)]
    exact ⟨rfl, rfl⟩
  · intro hdvd
    rw [Nat.div_mul_cancel (Int.natCast_dvd_natCast.mp hdvd)]

/-- The page that is implied by sources to skip and a limit holds the position of the first source
that is not skipped.  If its number and the limit are short enough to be written, it is shown, and
agrees with the results; otherwise there is no page, and no report of one. -/
theorem implied_page_agrees (hr : x.criteria.Reachable) (hc : x.criteria.WellPosed)
    {f : List Value → List Value} (hf : x.ArrangesBy f) {skip size : Int}
    (hskip : x.criteria.options.skip = some skip) (hlimit : x.criteria.options.limit = some size)
    (hpage : ∀ number, x.criteria.extras.page = some number → number ≤ 0) :
    (x.page - 1) * size ≤ skip ∧ skip < x.page * size ∧
    ∃ docs results : List Value, x.arranged = .ok docs ∧ x.execute.outcome = .ok results ∧
      (x.page.natAbs < Text.integerBound ∧ size.natAbs < Text.integerBound →
        ∃ (entries : List Value) (page : Page), x.paginate.outcome = .ok page ∧
          page.entries = .list entries ∧ page.currentPage = .int x.page ∧
          page.perPage = .int size ∧ Overlap docs results entries skip size x.page) ∧
      (¬(x.page.natAbs < Text.integerBound ∧ size.natAbs < Text.integerBound) →
        x.paginate = .silent (.error .integerTooLong)) := by
  have hv := hr.valid.options
  obtain ⟨k, rfl⟩ := Int.eq_ofNat_of_zero_le (hv.skip_nonneg skip hskip)
  obtain ⟨n, rfl⟩ := Int.eq_ofNat_of_zero_le (Int.le_of_lt (hv.limit_pos size hlimit))
  have hn : 0 < n := Int.natCast_pos.mp (hv.limit_pos n hlimit)
  have hnumber := page_implied hskip hlimit hn hpage
  have hsize : x.perPage = n := perPage_of_limit hlimit (by omega)
  have hreports := reportsPage_iff rfl hsize
  have hexecute : x.execute.outcome = .ok (((f x.criteria.selection).drop k).take n) := by
    rw [execute_eq_cut hv hc hf, Options.cut_limited hlimit, hskip]
    rfl
  refine ⟨?_, ?_, f x.criteria.selection, _, arranged_eq_ok hc hf, hexecute, ?_, ?_⟩
  · rw [hnumber, Int.add_sub_cancel, ← Int.natCast_mul]
    exact Int.ofNat_le.mpr (Nat.div_mul_le_self k n)
  · rw [hnumber, Int.add_mul, Int.one_mul, ← Int.natCast_mul, ← Int.natCast_add]
    exact Int.ofNat_lt.mpr (Nat.lt_div_mul_add hn)
  · intro hwritten
    refine ⟨pageWindow (f x.criteria.selection) x.page x.perPage, _,
      paginate_eq_page hc hf (hreports.mpr hwritten), rfl, rfl, congrArg Value.int hsize, ?_⟩
    rw [hnumber, hsize]
    exact overlap_windows _ k hn
  · exact fun hlong => paginate_eq_silent hc hf (mt hreports.mp hlong)

/-- Three of five sources are skipped, from the last one on, and two are to follow: the results
start with the second source, and the page that is implied, the second one, has it behind the
third. -/
theorem implied_page_agrees_reversed :
    let doc : Nat → Value := fun n => .record n 1 []
    let x : Context := (Criteria.empty.run [
      .documents (.list [doc 1, doc 2, doc 3, doc 4, doc 5]), .orderBy (.arrangement ⟨0, .reverse⟩),
      .skip (.int 3), .limit (.int 2), .extras (.dict [(.text "page", .int (-4))])]).context
    x.page = 2 ∧ ∃ (results entries : List Value) (page : Page), x.execute.outcome = .ok results ∧
      x.paginate.outcome = .ok page ∧ page.entries = .list entries ∧
      results.head? = some (doc 2) ∧ entries[1]? = some (doc 2) ∧ entries[0]? = some (doc 3) := by
  intro doc x
  have hf : x.ArrangesBy List.reverse := fun docs => rfl
  have hnumber : x.page = 2 := by with_unfolding_all rfl
  have hskip : x.criteria.options.skip = some 3 := rfl
  have hlimit : x.criteria.options.limit = some 2 := rfl
  obtain ⟨-, -, docs, results, -, hresults, hshown, -⟩ :=
    implied_page_agrees (x := x) (Criteria.reachable_empty.run _) (by decide +kernel) hf
      hskip hlimit (by rintro number ⟨⟩; decide)
  obtain ⟨entries, page, hpage, hentries, -, -, hoverlap⟩ := hshown (by decide +kernel)
  have hhead : results.head? = some (doc 2) := by
    have hfound : x.execute.outcome = .ok [doc 2, doc 1] := by with_unfolding_all rfl
    rw [hfound] at hresults
    rw [← Except.ok.inj hresults]
    rfl
  have hshown : entries = [doc 3, doc 2] := by
    have hfound : x.paginate.outcome = .ok ⟨.list [doc 3, doc 2], .int 2, .int 2, .int 5⟩ := by
      with_unfolding_all rfl
    rw [hfound] at hpage
    cases hpage
    exact (Value.list.inj hentries).symm
  have hsecond := hoverlap.first (doc 2) hhead
  rw [hnumber] at hsecond
  refine ⟨hnumber, results, entries, page, hresults, hpage, hentries, hhead, hsecond, ?_⟩
  rw [hshown]
  rfl

/-- With pages of one source, and as many to skip as can be written at most, the page that is
implied is the first one whose number cannot be written, and it is not shown. -/
theorem long_implied_page_not_shown :
    let skip : Int := Text.integerBound - 1
    let a : Value := .document [(.text "n", .text "1")]
    let c : Criteria := { Criteria.empty with
      documents := [a], options := ⟨some skip, some 1, none, []⟩ }
    c.Reachable ∧ c.WellPosed ∧ c.extras.page = none ∧
      skip.natAbs < Text.integerBound ∧ c.context.page = Text.integerBound ∧
      c.context.execute.outcome = .ok [] ∧
      c.context.paginate = .silent (.error .integerTooLong) := by
  intro skip a c
  have hbound : 1 < Text.integerBound := by decide +kernel
  have hskip : 0 ≤ skip := by omega
  have hone : (1 : Int) ≤ 1 := Int.le_refl 1
  have hc : c.WellPosed := ⟨fun s hs => by rw [List.mem_singleton.mp hs]; rfl,
    fun e he => absurd he List.not_mem_nil⟩
  have hreachable : c.Reachable := by
    have hdocs := Criteria.reachable_empty.advance (.documents (.list [a]))
    have hskipped := hdocs.of_apply (.skip (.int skip)) (Criteria.skip_int _ hskip)
    exact hskipped.of_apply (.limit (.int 1)) (Criteria.limit_int _ hone)
  have hnat : c.options.skip = some ((Text.integerBound - 1 : Nat) : Int) :=
    congrArg some (by omega)
  have hlimit : c.options.limit = some ((1 : Nat) : Int) := rfl
  have hnumber : c.context.page = Text.integerBound := by
    rw [page_implied (x := c.context) hnat hlimit Nat.one_pos nofun, Nat.div_one]
    omega
  have hlong : ¬c.context.ReportsPage := fun h =>
    Text.not_integerBound_lt ((reportsPage_iff hnumber rfl).mp h).1
  have hresults : c.context.execute.outcome = .ok [] := by
    rw [execute_outcome, arranged_eq_ok (x := c.context) hc (f := id) fun _ => rfl]
    show Except.ok (window [a] skip (some 1)) = _
    rw [window_eq_take hskip (Int.le_of_lt Int.one_pos), List.drop_of_length_le]
    · rfl
    · show 1 ≤ skip.toNat
      omega
  exact ⟨hreachable, hc, rfl, by omega, hnumber, hresults,
    paginate_eq_silent (x := c.context) hc (f := id) (fun _ => rfl) hlong⟩

end Context
end RecordQuery
