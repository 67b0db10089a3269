import RecordQuery.Paging
import RecordQuery.Proofs.Components

/-! # The number of a page

`Criteria.Sound` says, of the values that criteria keep, what every builder is to see to: what is
skipped is null or an integer that is not negative, the limit is null or a positive integer, and so
on.  It holds of criteria that are newly built (`Criteria.Built`), whichever way their options and
hints were read, and calls keep it, whatever their arguments.

The number of a page is the one asked for, if it is positive, and otherwise found by a division by
the limit.  `Context.pageOrFault` is the number with a fault where a division by zero would be
made; in sound criteria there is none and pages are numbered from one (`page_of_valid`).  All of it
is in `built_run_sound`. -/

namespace RecordQuery

/-! ### Kept values -/

namespace Value

/-- Whether a value is null or an integer from `least` on. -/
def IsCount (least : Int) (v : Value) : Prop := v = .null ∨ ∃ n, v = .int n ∧ least ≤ n

theorem isCount_ofCount {least : Int} {count : Option Int}
    (h : ∀ n, count = some n → least ≤ n) : IsCount least (ofCount count) := by
  cases count with
  | none => exact .inl rfl
  | some n => exact .inr ⟨n, rfl, h n rfl⟩

end Value

/-- What passes the checks is kept as it was given, the projection apart. -/
theorem Options.value_of_checkAll {values : Name → Value} {o : Options}
    (h : checkAll values = .ok o) {name : Name} (hname : name ≠ .fields) :
    o.value name = values name := by
  obtain ⟨hskip, hlimit, hsort, -, -⟩ := check_eq_ok_iff.mp h
  cases name with
  | skip => exact hskip.symm
  | limit => exact hlimit.symm
  | sort => exact hsort.symm
  | fields => exact absurd rfl hname

namespace Criteria

/-- Whether every option is null or what it is checked for, the page is null or an integer, and no
two conditions are on one field. -/
structure Sound (c : Criteria) : Prop where
  skip : (c.options.value .skip).IsCount 0
  limit : (c.options.value .limit).IsCount 1
  sort : c.options.value .sort = .null ∨ (c.options.value .sort).isArrangement = true
  page : c.extras.pageValue = .null ∨ ∃ n, c.extras.pageValue = .int n
  selector : Dict.Distinct c.selector

theorem Valid.sound {c : Criteria} (hc : c.Valid) : c.Sound where
  skip := Value.isCount_ofCount hc.options.skip_nonneg
  limit := Value.isCount_ofCount hc.options.limit_pos
  sort := by
    unfold Options.value
    cases c.options.sort with
    | none => exact .inl rfl
    | some a => exact .inr rfl
  page := by
    unfold Extras.pageValue
    cases c.extras.page with
    | none => exact .inl rfl
    | some n => exact .inr ⟨n, rfl⟩
  selector := hc.selector

/-! ### New criteria and calls -/

/-- Whether criteria are newly built: their conditions from entries, their options and their hints
from dictionaries, or checked one by one. -/
structure Built (c : Criteria) : Prop where
  selector : ∃ entries, c.selector = Dict.ofEntries entries
  options : (∃ v, Options.ofValue v = .ok c.options) ∨
    ∃ values, Options.checkAll values = .ok c.options
  extras : (∃ v, Extras.ofValue v = .ok c.extras) ∨ ∃ page, Extras.check page = .ok c.extras

theorem Built.valid {c : Criteria} (hb : c.Built) : c.Valid where
  options := by
    rcases hb.options with ⟨v, h⟩ | ⟨values, h⟩
    · exact Options.Valid.of_ofValue h
    · exact Options.Valid.of_check h
  selector := by
    obtain ⟨entries, h⟩ := hb.selector
    rw [h]
    exact Dict.distinct_ofEntries entries

theorem Valid.run {c : Criteria} (hc : c.Valid) (steps : List Step) : (c.run steps).Valid := by
  induction steps generalizing c with
  | nil => exact hc
  | cons step steps ih => exact ih (valid_advance hc step)

theorem withOption_keeps {c next : Criteria} {name : Options.Name} {v : Value}
    (h : c.withOption name v = .ok next) (hname : name ≠ .fields) :
    next.options.value name = v := by
  obtain ⟨o, ho, rfl⟩ := exists_of_map_eq_ok h
  have hvalue := Options.value_of_checkAll ho hname
  rw [Function.update_self] at hvalue
  exact hvalue

theorem paginate_keeps {c next : Criteria} {page perPage : Value}
    (h : c.paginate page perPage = .ok next) : next.extras.pageValue = page := by
  rw [paginate_eq] at h
  obtain ⟨extras, hextras, h⟩ := exists_of_bind_eq_ok h
  obtain ⟨limit, -, h⟩ := exists_of_bind_eq_ok h
  cases h
  exact (Extras.check_eq_ok_iff.mp hextras).symm

end Criteria

/-! ### Pages -/

namespace Context

/-- The number of the page, where a division by zero is a fault. -/
def pageOrFault (x : Context) : Except Fault Int :=
  match x.criteria.extras.page with
  | some n => if 0 < n then .ok n else implied
  | none => implied
where
  /-- The page on which the first source after the skipped ones lies. -/
  implied : Except Fault Int :=
    match x.criteria.options.skip, x.criteria.options.limit with
    | some skip, some limit =>
      if limit = 0 then .error (.arithmetic .divisionByZero)
      else .ok (Int.fdiv (skip + limit) limit)
    | _, _ => .ok 1

theorem one_le_fdiv {skip limit : Int} (hs : 0 ≤ skip) (hl : 0 < limit) :
    1 ≤ Int.fdiv (skip + limit) limit := by
  rw [Int.fdiv_eq_ediv_of_nonneg _ (Int.le_of_lt hl), Int.le_ediv_iff_mul_le hl]
  omega

theorem implied_of_valid {x : Context} (hv : x.criteria.options.Valid) :
    pageOrFault.implied x = .ok (page.implied x) ∧ 1 ≤ page.implied x := by
  unfold pageOrFault.implied page.implied
  cases hskip : x.criteria.options.skip with
  | none => exact ⟨rfl, Int.le_refl 1⟩
  | some skip =>
      cases hlimit : x.criteria.options.limit with
      | none => exact ⟨rfl, Int.le_refl 1⟩
      | some limit =>
          have hs := hv.skip_nonneg skip hskip
          have hl := hv.limit_pos limit hlimit
          exact ⟨if_neg (by omega), one_le_fdiv hs hl⟩

/-- Checked options number pages from one, and no division by zero is made. -/
theorem page_of_valid {x : Context} (hv : x.criteria.options.Valid) :
    x.pageOrFault = .ok x.page ∧ 1 ≤ x.page := by
  have himplied := implied_of_valid hv
  unfold pageOrFault page
  cases x.criteria.extras.page with
  | none => exact himplied
  | some n =>
      by_cases hn : 0 < n
      · simp only [if_pos hn]
        exact ⟨trivial, hn⟩
      · simp only [if_neg hn]
        exact himplied

end Context

namespace Criteria

/-- Calls keep new criteria sound, whatever their arguments: options are null or as they were
given and checked, and no two conditions are on one field.  So every context of the criteria has
its page numbered from one, and never divides by zero to find it. -/
theorem built_run_sound {c : Criteria} (hb : c.Built) (steps : List Step) :
    (c.run steps).Sound ∧
    (∀ (name : Options.Name) (v : Value) (next : Criteria), name ≠ .fields →
      (c.run steps).withOption name v = .ok next → next.options.value name = v) ∧
    (∀ (page perPage : Value) (next : Criteria),
      (c.run steps).paginate page perPage = .ok next → next.extras.pageValue = page) ∧
    ∀ x : Context, x.criteria = c.run steps → x.pageOrFault = .ok x.page ∧ 1 ≤ x.page := by
  have hv := hb.valid.run steps
  refine ⟨hv.sound, fun name v next hname h => withOption_keeps h hname,
    fun page perPage next h => paginate_keeps h, ?_⟩
  intro x hx
  exact Context.page_of_valid (hx ▸ hv.options)

/-- Criteria with options and hints from dictionaries, and calls of which half are refused: a truth
value is no count and a number that is not an integer no page, and a page of a size that is a text
is not asked for at all.  The page asked for last is not positive, so the sources to skip decide. -/
theorem built_run_sound_implied :
    let c : Criteria := { empty with
      options := ⟨some 1, some 9, none, []⟩, extras := ⟨some 4⟩,
      selector := Dict.ofEntries [(.text "n", .null), (.text "n", .text "1")] }
    let steps : List Step := [.skip (.bool true), .skip (.int 6), .limit (.int 0), .limit (.int 4),
      .paginate (.float (.finite false 0)) .null, .paginate (.int (-1)) .null,
      .paginate (.int 2) (.text "3"), .filter (.list [.text "ab", .tuple [.text "a", .null]]) []]
    c.Built ∧ (c.run steps).Sound ∧ (c.run steps).selector.length = 2 ∧
      (c.run steps).context.pageOrFault = .ok 2 ∧ 1 ≤ (c.run steps).context.page := by
  intro c steps
  have hb : c.Built := by
    refine ⟨⟨_, rfl⟩, .inl ⟨.dict [(.text "skip", .int 1), (.text "limit", .int 9)], rfl⟩,
      .inl ⟨.dict [(.text "page", .int 4)], rfl⟩⟩
  obtain ⟨hsound, -, -, hpage⟩ := built_run_sound hb steps
  obtain ⟨hfault, hpositive⟩ := hpage (c.run steps).context rfl
  have hnumber : (c.run steps).context.page = 2 := by with_unfolding_all rfl
  rw [hnumber] at hfault
  exact ⟨hb, hsound, by with_unfolding_all rfl, hfault, hpositive⟩

end Criteria
end RecordQuery
