import RecordQuery.Proofs.PageCount

/-! # Pages within their bounds

`Page.Within` says what a page promises about the list that it is cut out of: no more entries than
its size, a place and a number of pages that are not negative, and each entry where the page says
that it stands.  A page of a size that is not negative keeps the promise, and no page of a negative
size does, since even no entries are too many for it.

The limit of a query is checked to be positive, so the size of a page can only be negative where it
comes from the settings, which take any integer.  This is `page_within_iff`. -/

namespace RecordQuery

/-- Every integer is taken for the size of a page. -/
theorem Settings.read_int (start : String) (n : Int) :
    read start [(pageSizeName, .int n)] [] = .ok { standard with defaultPerPage := n } := by
  have hself : sameName pageSizeName pageSizeName = true := beq_self_eq_true _
  have hother : sameName pageSizeName fieldNameName = false := by decide +kernel
  have hsize : given? start [(pageSizeName, .int n)] [] pageSizeName = some (.int n) := by
    simp [given?, namedValue?, hself]
  have hname : given? start [(pageSizeName, .int n)] [] fieldNameName = none := by
    simp [given?, namedValue?, variableValue?, hother]
  have hunknown : unknownNames [(pageSizeName, Input.int n)] = [] := by
    simp [unknownNames, hself]
  unfold read
  rw [hsize, hname, hunknown]
  rfl

/-! ### What a page promises -/

namespace Page

/-- Whether entries, the place of the first one and the number of pages are in order for pages of
one size that a list is cut into. -/
structure Bounds (docs entries : List Value) (size offset total : Int) : Prop where
  length_le : (entries.length : Int) ≤ size
  offset_nonneg : 0 ≤ offset
  total_nonneg : 0 ≤ total
  placed : ∀ (j : Nat) (s : Value), entries[j]? = some s →
    ∃ i : Nat, (i : Int) = offset + j ∧ i < offset + size ∧ docs[i]? = some s

/-- Whether a page has entries, a place and a number of pages, and these are in order for the list
that it is cut out of. -/
def Within (p : Page) (docs : List Value) : Prop :=
  ∃ (entries : List Value) (size offset total : Int), p.entries = .list entries ∧
    p.perPage = .int size ∧ p.offset = .ok (.int offset) ∧ p.totalPages = .ok (.int total) ∧
    Bounds docs entries size offset total

theorem offset_int (entries total : Value) (number size : Int) :
    (Page.mk entries (.int number) (.int size) total).offset = .ok (.int ((number - 1) * size)) :=
  rfl

theorem exists_totalPages (entries number : Value) (size : Nat) {total : Nat}
    (ht : total < 2 ^ 53) :
    ∃ pages : Nat, (Page.mk entries number (.int size) (.int total)).totalPages =
      .ok (.int pages) := by
  rcases Nat.eq_zero_or_pos size with rfl | hs
  · exact ⟨0, totalPages_of_zero _⟩
  · exact ⟨_, totalPages_of_pos hs ht⟩

/-- No list is short enough for a negative size. -/
theorem not_within_of_neg {p : Page} {size : Int} (hp : p.perPage = .int size) (hs : size < 0)
    (docs : List Value) : ¬p.Within docs := by
  rintro ⟨entries, size', _, _, -, hsize, -, -, hbounds⟩
  rw [hp] at hsize
  cases hsize
  have := hbounds.length_le
  omega

end Page

namespace Context

variable {x : Context}

theorem getElem?_pageWindow (docs : List Value) (number size : Nat) {j : Nat} {s : Value}
    (h : (pageWindow docs (number + 1) size)[j]? = some s) :
    j < size ∧ docs[number * size + j]? = some s := by
  rw [pageWindow_succ] at h
  unfold Window.part at h
  rw [List.getElem?_take, List.getElem?_drop] at h
  split at h
  · exact ⟨‹_›, h⟩
  · exact nomatch h

theorem bounds_pageWindow (docs : List Value) (number size : Nat) {total : Int}
    (ht : 0 ≤ total) :
    Page.Bounds docs (pageWindow docs (number + 1) size) size (number * size : Nat) total where
  length_le := by
    rw [pageWindow_succ, Window.length_part]
    omega
  offset_nonneg := Int.natCast_nonneg _
  total_nonneg := ht
  placed j s h := by
    obtain ⟨hj, hs⟩ := getElem?_pageWindow docs number size h
    exact ⟨number * size + j, by omega, by omega, hs⟩

/-- A page of a size that is not negative keeps within its bounds. -/
theorem within_of_nonneg (docs : List Value) {number size : Int} (hn : 1 ≤ number)
    (hs : 0 ≤ size) {total : Nat} (ht : total < 2 ^ 53) :
    (Page.mk (.list (pageWindow docs number size)) (.int number) (.int size)
      (.int total)).Within docs := by
  obtain ⟨i, rfl⟩ := exists_nat_succ hn
  obtain ⟨s, rfl⟩ := Int.eq_ofNat_of_zero_le hs
  obtain ⟨pages, hpages⟩ := Page.exists_totalPages
    (.list (pageWindow docs (i + 1) s)) (.int (i + 1)) s ht
  have hoffset : ((i : Int) + 1 - 1) * s = ((i * s : Nat) : Int) := by
    rw [Int.add_sub_cancel, Int.natCast_mul]
  refine ⟨_, _, _, pages, rfl, rfl, Page.offset_int _ _ _ _, hpages, ?_⟩
  rw [hoffset]
  exact bounds_pageWindow docs i s (Int.natCast_nonneg pages)

/-- Without a limit, the settings say the size of a page; a checked limit is positive. -/
theorem perPage_nonneg_iff (hv : x.criteria.options.Valid) :
    0 ≤ x.perPage ↔
      x.criteria.options.limit ≠ none ∨ 0 ≤ x.criteria.settings.defaultPerPage := by
  cases h : x.criteria.options.limit with
  | none =>
      have hsettings : x.perPage = x.criteria.settings.defaultPerPage := by
        unfold perPage
        rw [h]
      rw [hsettings]
      exact ⟨.inr, fun hor => hor.resolve_left fun hne => hne rfl⟩
  | some n =>
      have hn := hv.limit_pos n h
      rw [perPage_of_limit h (by omega)]
      exact iff_of_true (by omega) (.inl nofun)

/-- A page keeps within its bounds just when the query has a limit or the settings say a size that
is not negative.  There is a page whenever its number and its size are short enough to be
written. -/
theorem page_within_iff (hr : x.criteria.Reachable) (hc : x.criteria.WellPosed)
    {f : List Value → List Value} (hf : x.ArrangesBy f)
    (hfew : x.criteria.selection.length < 2 ^ 53) :
    (x.ReportsPage →
      ∃ page : Page, x.paginate.outcome = .ok page ∧ page.perPage = .int x.perPage ∧
        x.arranged = .ok (f x.criteria.selection) ∧
        (page.Within (f x.criteria.selection) ↔
          x.criteria.options.limit ≠ none ∨ 0 ≤ x.criteria.settings.defaultPerPage)) ∧
    (¬x.ReportsPage → x.paginate = .silent (.error .integerTooLong)) := by
  refine ⟨fun hreports => ?_, paginate_eq_silent hc hf⟩
  refine ⟨_, paginate_eq_page hc hf hreports, rfl, arranged_eq_ok hc hf, ?_⟩
  rw [← perPage_nonneg_iff hr.valid.options]
  constructor
  · intro hwithin
    by_contra hneg
    exact Page.not_within_of_neg rfl (Int.not_le.mp hneg) _ hwithin
  · intro hs
    exact within_of_nonneg _ (page_of_valid hr.valid.options).2 hs hfew

/-- The second page of one of two sources keeps within its bounds, whatever negative size the
settings say. -/
theorem page_within_limited :
    let a : Value := .document [(.text "n", .text "1")]
    let c : Criteria := { Criteria.empty with
      documents := [a, .record 0 1 []], settings := ⟨-7, "_id"⟩ }
    let x : Context := (c.run [.paginate (.int 2) (.int 1)]).context
    x.criteria.WellPosed ∧ x.criteria.settings.defaultPerPage = -7 ∧
      x.criteria.selection.length = 2 ∧ ∃ page : Page, x.paginate.outcome = .ok page ∧
        page.entries = .list [.record 0 1 []] ∧ page.Within [a, .record 0 1 []] := by
  intro a c x
  have hf : x.ArrangesBy id := fun docs => rfl
  have hc : x.criteria.WellPosed := by decide +kernel
  have hr : c.Reachable :=
    @Criteria.Reachable.create [a, .record 0 1 []] .null none ⟨-7, "_id"⟩ .null c rfl
  have hcount : x.criteria.selection.length = 2 := by with_unfolding_all rfl
  obtain ⟨hshown, -⟩ := page_within_iff (hr.run _) hc hf (by rw [hcount]; decide)
  obtain ⟨page, hpage, -, -, hiff⟩ := hshown (by decide +kernel)
  have hwithin := hiff.mpr (.inl (by with_unfolding_all exact nofun))
  refine ⟨hc, by with_unfolding_all rfl, hcount, page, hpage, ?_, hwithin⟩
  have hoc : x.paginate.outcome = .ok ⟨.list [.record 0 1 []], .int 2, .int 1, .int 2⟩ := by
    with_unfolding_all rfl
  rw [hoc] at hpage
  cases hpage
  rfl

/-- Where the settings say a size of one below zero, the first page of two sources has the first of
them for its entry. -/
theorem negative_page_not_within :
    let a : Value := .document [(.text "n", .text "1")]
    let b : Value := .document [(.text "n", .text "2")]
    ∃ (settings : Settings) (c : Criteria) (page : Page),
      Settings.read "DOCQUERY_" [(Settings.pageSizeName, .int (-1))] [] = .ok settings ∧
      Criteria.create [a, b] .null none settings .null = .ok c ∧
      c.context.paginate.outcome = .ok page ∧ page.perPage = .int (-1) ∧
      page.entries = .list [a] ∧ c.context.arranged = .ok [a, b] ∧ ¬page.Within [a, b] := by
  intro a b
  refine ⟨⟨-1, "_id"⟩, { Criteria.empty with documents := [a, b], settings := ⟨-1, "_id"⟩ },
    ⟨.list [a], .int 1, .int (-1), .int 2⟩, Settings.read_int _ _, rfl, ?_, rfl, rfl, ?_,
    Page.not_within_of_neg rfl (by decide) _⟩
  · with_unfolding_all rfl
  · with_unfolding_all rfl

end Context
end RecordQuery
