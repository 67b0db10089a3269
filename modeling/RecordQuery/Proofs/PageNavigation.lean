import Mathlib.Data.List.Perm.Lattice
import Mathlib.Data.Rat.Floor
import RecordQuery.Proofs.PageCount

/-! # Turning pages

The numbers that a page gives for its neighbours lead through all pages of a result.  `Page.Visits`
says which numbers are met from a page on when each page is left for the next one until there is no
next one, with the size and the total held fixed.

A total and a size that a significand holds have a quotient whose ceiling survives rounding, since
no such quotient is small enough to be rounded to zero (`ceilQuotient_of_lt`).  So from the first
page on every page is visited once, in order, and the places of their first entries are the
multiples of the size below the total.  This is `navigation_exact`. -/

namespace RecordQuery

/-! ### Exact ceilings -/

/-- A quotient by a number that a significand holds is not rounded to zero. -/
theorem Binary64.ceilQuotient_of_lt {n d : Nat} (hd : d < 2 ^ 53) : ceilQuotient n d = n ⌈/⌉ d := by
  unfold ceilQuotient
  rcases Nat.eq_zero_or_pos n with rfl | hn
  · rw [Nat.zero_mul, if_neg (Nat.not_lt_zero d), zero_ceilDiv]
  · obtain ⟨k, -, hone, -, hk, -⟩ := exists_exponents
    have hunits : 2 ^ 53 ≤ unitsOfOne := by
      rw [hone]
      exact Nat.pow_le_pow_right (by decide) hk
    have hmul : unitsOfOne ≤ n * unitsOfOne := Nat.le_mul_of_pos_left _ hn
    rw [if_pos (by omega)]

theorem ceilDiv_eq_ceil (n : Nat) {d : Nat} (hd : 0 < d) :
    ((n ⌈/⌉ d : Nat) : Int) = ⌈(n : ℚ) / d⌉ := by
  refine eq_of_forall_ge_iff fun c => ?_
  have hpos : (0 : ℚ) < d := by exact_mod_cast hd
  rw [Int.ceil_le, div_le_iff₀ hpos]
  rcases lt_or_ge c 0 with hneg | hnonneg
  · have hprod : (c : ℚ) * d < 0 := mul_neg_of_neg_of_pos (by exact_mod_cast hneg) hpos
    have hn : (0 : ℚ) ≤ n := Nat.cast_nonneg n
    refine iff_of_false (by omega) (by linarith)
  · obtain ⟨m, rfl⟩ := Int.eq_ofNat_of_zero_le hnonneg
    rw [Int.ofNat_le, ceilDiv_le_iff_le_mul hd, Nat.mul_comm]
    exact_mod_cast Iff.rfl

/-- The multiples of a size below a total are as many as the pages, and zero is one of them also
where the total is zero. -/
theorem filter_dvd_range {size : Nat} (hs : 0 < size) (total : Nat) :
    (List.range (max 1 total)).filter (size ∣ ·) =
      (List.range (max 1 (total ⌈/⌉ size))).map (· * size) := by
  have hlt : ∀ i, i < max 1 (total ⌈/⌉ size) ↔ i * size < max 1 total := by
    intro i
    have hle : total ⌈/⌉ size ≤ i ↔ total ≤ size * i := ceilDiv_le_iff_le_mul hs
    have hzero : i = 0 ↔ i * size = 0 := by simp [Nat.ne_of_gt hs]
    rw [Nat.mul_comm size i] at hle
    omega
  -- both lists increase, so it is enough that they have the same members
  have hleft : ((List.range (max 1 total)).filter (size ∣ ·)).Pairwise (· < ·) :=
    List.pairwise_lt_range.filter _
  have hright : ((List.range (max 1 (total ⌈/⌉ size))).map (· * size)).Pairwise (· < ·) :=
    List.pairwise_lt_range.map _ fun i j hij => Nat.mul_lt_mul_of_pos_right hij hs
  refine List.Perm.eq_of_pairwise (fun a b _ _ hab hba => absurd hab (Nat.lt_asymm hba)) hleft
    hright ((List.perm_ext_iff_of_nodup hleft.nodup hright.nodup).mpr fun o => ?_)
  simp only [List.mem_filter, List.mem_map, List.mem_range, decide_eq_true_eq]
  constructor
  · rintro ⟨ho, i, rfl⟩
    rw [Nat.mul_comm] at ho
    exact ⟨i, (hlt i).mpr ho, Nat.mul_comm i size⟩
  · rintro ⟨i, hi, rfl⟩
    exact ⟨(hlt i).mp hi, Nat.dvd_mul_left size i⟩

theorem Value.lt_int (m n : Int) : (int m).lt (.int n) = .ok (decide (m < n)) := by
  have hlt : (int m).lt (.int n) = .ok (Number.lt (.int m) (.int n)) := rfl
  rw [hlt, Number.lt_int]

namespace Page

/-! ### Neighbouring pages -/

/-- The page with a number among pages of one size of a total, whatever their entries are. -/
def numbered (entries : Value → Value) (size total number : Value) : Page :=
  ⟨entries number, number, size, total⟩

variable {entries : Value → Value} {size total count : Nat}

theorem totalPages_numbered (hs : 0 < size) (hsize : size < 2 ^ 53) (htotal : total < 2 ^ 53)
    (number : Value) : (numbered entries (.int size) (.int total) number).totalPages =
      .ok (.int (total ⌈/⌉ size : Nat)) := by
  unfold numbered
  rw [totalPages_of_pos hs htotal, Binary64.ceilQuotient_of_lt hsize]

theorem nextPage_of_lt {p : Page} {pages : Value} {more : Bool} (hpages : p.totalPages = .ok pages)
    (hmore : p.currentPage.lt pages = .ok more) :
    p.nextPage = if more then p.currentPage.add (.int 1) else .ok .null := by
  unfold nextPage
  rw [hpages]
  simp only [bind, Except.bind]
  rw [hmore]
  rfl

theorem previousPage_of_gt {p : Page} {later : Bool}
    (hlater : p.currentPage.gt (.int 1) = .ok later) :
    p.previousPage = if later then p.currentPage.sub (.int 1) else .ok .null := by
  unfold previousPage
  rw [hlater]
  rfl

theorem nextPage_of_totalPages {p : Page} {number : Nat} (hp : p.currentPage = .int number)
    (hpages : p.totalPages = .ok (.int count)) :
    p.nextPage = .ok (if number < count then .int (number + 1 : Nat) else .null) := by
  have hmore : p.currentPage.lt (.int count) = .ok (decide (number < count)) := by
    rw [hp, Value.lt_int]
    simp
  rw [nextPage_of_lt hpages hmore, hp]
  by_cases hlt : number < count
  · rw [if_pos hlt, if_pos (decide_eq_true hlt)]
    rfl
  · rw [if_neg hlt, if_neg (by simpa using hlt)]

theorem previousPage_succ {p : Page} {number : Nat} (hp : p.currentPage = .int (number + 1 : Nat)) :
    p.previousPage = .ok (if 0 < number then .int number else .null) := by
  have hlater : p.currentPage.gt (.int 1) = .ok (decide (0 < number)) := by
    rw [hp, Value.gt_int]
    congr 2
    apply propext
    omega
  rw [previousPage_of_gt hlater, hp]
  by_cases hpos : 0 < number
  · rw [if_pos hpos, if_pos (decide_eq_true hpos)]
    show Except.ok (Value.int (((number + 1 : Nat) : Int) - 1)) = _
    rw [Int.natCast_succ, Int.add_sub_cancel]
  · rw [if_neg hpos, if_neg (by simpa using hpos)]

theorem offset_succ {p : Page} {number : Nat} (hp : p.currentPage = .int (number + 1 : Nat))
    (hs : p.perPage = .int size) : p.offset = .ok (.int (number * size : Nat)) := by
  unfold offset
  rw [hp, hs]
  show Except.ok (Value.int ((((number + 1 : Nat) : Int) - 1) * size)) = _
  rw [Int.natCast_succ, Int.add_sub_cancel, Int.natCast_mul]

/-! ### Visits -/

/-- Which numbers are met from a number on when each page is left for the one that it gives for the
next, until there is no next one. -/
inductive Visits (page : Value → Page) : Value → List Value → Prop
  | stop {number : Value} (h : (page number).nextPage = .ok .null) : Visits page number [number]
  | turn {number next : Value} {numbers : List Value} (h : (page number).nextPage = .ok next)
      (hnext : next ≠ .null) (rest : Visits page next numbers) :
      Visits page number (number :: numbers)

variable {page : Value → Page}

/-- At most one list of numbers is met from a number on. -/
theorem Visits.unique {number : Value} {numbers others : List Value}
    (h : Visits page number numbers) (h' : Visits page number others) : numbers = others := by
  induction h generalizing others with
  | stop hstop =>
      cases h' with
      | stop _ => rfl
      | turn hnext hne _ =>
          rw [hstop] at hnext
          exact absurd (Except.ok.inj hnext).symm hne
  | turn hnext hne _ ih =>
      cases h' with
      | stop hstop =>
          rw [hstop] at hnext
          exact absurd (Except.ok.inj hnext).symm hne
      | turn hnext' _ rest =>
          rw [hnext] at hnext'
          obtain rfl := Except.ok.inj hnext'
          rw [ih rest]

/-- From a page on that is the first one or is counted, all later ones are visited. -/
theorem visits_range' (hnumber : ∀ i : Nat, (page (.int (i + 1 : Nat))).nextPage =
      .ok (if i + 1 < count then .int (i + 2 : Nat) else .null))
    (left : Nat) {i : Nat} (h : i + left + 1 = max 1 count) :
    Visits page (.int (i + 1 : Nat))
      ((List.range' i (left + 1)).map fun j => .int (j + 1 : Nat)) := by
  induction left generalizing i with
  | zero =>
      apply Visits.stop
      rw [hnumber, if_neg (by omega)]
  | succ left ih =>
      rw [List.range'_succ, List.map_cons]
      refine Visits.turn ?_ (nofun : Value.int (i + 2 : Nat) ≠ .null) (ih (by omega))
      rw [hnumber, if_pos (by omega)]

/-- For a total and a size that a significand holds, the number of pages is the exact ceiling of
their quotient.  From the first page on, following the next page visits the pages up to the last
one, or the first one alone where there are none, each once and in order, and then ends; the page
before leads back from each of them; and their places are the multiples of the size below the
total, or zero alone where there are none. -/
theorem navigation_exact (hs : 1 ≤ size) (hsize : size < 2 ^ 53) (htotal : total < 2 ^ 53)
    (entries : Value → Value) :
    let page := numbered entries (.int size) (.int total)
    ∃ count : Nat, (count : Int) = ⌈(total : ℚ) / size⌉ ∧
      (∀ number, (page number).totalPages = .ok (.int count)) ∧
      ∃ visited : List Value,
        visited = (List.range (max 1 count)).map (fun i => .int (i + 1 : Nat)) ∧
        (∀ numbers, Visits page (.int 1) numbers ↔ numbers = visited) ∧
        (page (.int 1)).previousPage = .ok .null ∧
        (∀ i before after, visited[i]? = some before → visited[i + 1]? = some after →
          (page after).previousPage = .ok before) ∧
        visited.map (fun number => (page number).offset) =
          ((List.range (max 1 total)).filter (size ∣ ·)).map fun o => .ok (.int o) := by
  intro page
  have hcount : ∀ number, (page number).totalPages = .ok (.int (total ⌈/⌉ size : Nat)) :=
    totalPages_numbered hs hsize htotal
  have hnext : ∀ i : Nat, (page (.int (i + 1 : Nat))).nextPage =
      .ok (if i + 1 < total ⌈/⌉ size then .int (i + 2 : Nat) else .null) := fun i =>
    nextPage_of_totalPages rfl (hcount _)
  refine ⟨total ⌈/⌉ size, ceilDiv_eq_ceil total hs, hcount, _, rfl, ?_, ?_, ?_, ?_⟩
  · have hvisits := visits_range' hnext (max 1 (total ⌈/⌉ size) - 1) (i := 0) (by omega)
    rw [Nat.sub_add_cancel (by omega), ← List.range_eq_range'] at hvisits
    intro numbers
    constructor
    · intro h
      exact h.unique hvisits
    · rintro rfl
      exact hvisits
  · have hfirst : (page (.int 1)).currentPage = .int (0 + 1 : Nat) := rfl
    rw [previousPage_succ hfirst, if_neg (Nat.lt_irrefl 0)]
  · intro i before after hbefore hafter
    rw [List.getElem?_map, Option.map_eq_some_iff] at hbefore hafter
    obtain ⟨j, hj, rfl⟩ := hbefore
    obtain ⟨k, hk, rfl⟩ := hafter
    rw [List.getElem?_eq_some_iff] at hj hk
    obtain ⟨_, rfl⟩ := hj
    obtain ⟨_, rfl⟩ := hk
    rw [List.getElem_range, List.getElem_range]
    rw [previousPage_succ rfl, if_pos (Nat.succ_pos _)]
  · rw [filter_dvd_range hs, List.map_map, List.map_map]
    exact List.map_congr_left fun i _ => offset_succ rfl rfl

/-- Five entries on pages of two. -/
theorem navigation_exact_five :
    let page := numbered (fun _ => .list []) (.int (2 : Nat)) (.int (5 : Nat))
    (page (.int 3)).totalPages = .ok (.int 3) ∧
      Visits page (.int 1) [.int 1, .int 2, .int 3] ∧
      (page (.int 3)).previousPage = .ok (.int 2) ∧
      [(page (.int 1)).offset, (page (.int 2)).offset, (page (.int 3)).offset] =
        [.ok (.int 0), .ok (.int 2), .ok (.int 4)] := by
  intro page
  obtain ⟨count, hceil, hcount, visited, hvisited, hvisits, -, hprevious, hoffsets⟩ :=
    navigation_exact (by decide : 1 ≤ 2) (by decide) (by decide : 5 < 2 ^ 53) fun _ => .list []
  have hthree : count = 3 := by
    have : ((5 : Nat) : ℚ) / (2 : Nat) = 5 / 2 := by norm_num
    rw [this] at hceil
    have : ⌈(5 / 2 : ℚ)⌉ = 3 := by norm_num [Int.ceil_eq_iff]
    omega
  subst hthree
  subst hvisited
  exact ⟨hcount _, (hvisits _).mpr rfl, hprevious 1 _ _ rfl rfl, hoffsets⟩

end Page
end RecordQuery
