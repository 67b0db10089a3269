import Mathlib.Algebra.Order.Floor.Div
import RecordQuery.Number.Basic

/-! # Rounded quotients

Rounding to nearest does not cross a number that it can represent.  Take a magnitude that is a
multiple of the spacing around a quotient: it bounds the rounded quotient from above or from below
when it bounds the exact one (`roundUnits_le`, `le_roundUnits`), and lies strictly below the rounded
quotient when the exact one is more than half a spacing larger (`lt_roundUnits`).  Every magnitude
that is `Represented` bounds rounded quotients as it does exact ones, however large the spacing
around them.

The numbers of interest are integers below `2 ^ 53`, divided by positive integers of any size.  Such
a quotient never reaches an integer that it did not reach before it was rounded, so its ceiling is
exact, with one exception: a quotient of at most half the least positive number is rounded to zero.
This is `ceil_quotient`. -/

namespace RecordQuery
namespace Binary64

/-! ### The nearest natural number -/

theorem roundHalfEven_le {num den bound : Nat} (h : num ≤ bound * den) :
    roundHalfEven num den ≤ bound := by
  have hsplit := Nat.div_add_mod num den
  have hq : num / den ≤ bound := Nat.div_le_of_le_mul (by rwa [Nat.mul_comm])
  unfold roundHalfEven
  rcases Nat.lt_or_ge (num / den) bound with hlt | hge
  · dsimp only
    split
    · exact hq
    · split <;> omega
  · -- the quotient is the bound, and nothing remains
    have hr : num % den = 0 := by
      have hmul : bound * den ≤ den * (num / den) := by
        rw [Nat.mul_comm]
        exact Nat.mul_le_mul_left den hge
      omega
    dsimp only
    rw [hr]
    split
    · exact hq
    · rw [if_neg (Nat.not_lt_zero _)]
      have hden : den = 0 := by omega
      rw [hden, Nat.div_zero]
      exact Nat.zero_le _

theorem div_le_roundHalfEven (num den : Nat) : num / den ≤ roundHalfEven num den := by
  unfold roundHalfEven
  dsimp only
  split
  · exact Nat.le_refl _
  · split
    · exact Nat.le_succ _
    · exact Nat.le_add_right _ _

theorem le_roundHalfEven {num den bound : Nat} (hden : 0 < den) (h : bound * den ≤ num) :
    bound ≤ roundHalfEven num den :=
  Nat.le_trans ((Nat.le_div_iff_mul_le hden).mpr h) (div_le_roundHalfEven num den)

/-- A quotient beyond the middle between a number and the next is rounded to more than the
number. -/
theorem lt_roundHalfEven {num den bound : Nat} (hden : 0 < den)
    (h : 2 * (bound * den) + den < 2 * num) : bound < roundHalfEven num den := by
  have hsplit := Nat.div_add_mod num den
  have hle : bound ≤ num / den := by
    rw [Nat.le_div_iff_mul_le hden]
    omega
  rcases Nat.lt_or_ge bound (num / den) with hlt | hge
  · exact Nat.lt_of_lt_of_le hlt (div_le_roundHalfEven num den)
  · have hq : num / den = bound := Nat.le_antisymm hge hle
    have hr : den < 2 * (num % den) := by
      rw [hq, Nat.mul_comm] at hsplit
      omega
    unfold roundHalfEven
    dsimp only
    rw [if_neg (by omega), if_pos hr, hq]
    exact Nat.lt_succ_self _

theorem roundHalfEven_of_le_half {num den : Nat} (h : 2 * num ≤ den) (hnum : 0 < num) :
    roundHalfEven num den = 0 := by
  have hlt : num < den := by omega
  unfold roundHalfEven
  dsimp only
  rw [Nat.div_eq_of_lt hlt, Nat.mod_eq_of_lt hlt]
  split
  · rfl
  · rw [if_neg (by omega)]

/-! ### The nearest magnitude -/

theorem spacing_pos (units : Nat) : 0 < spacing units := Nat.pow_pos (by decide)

/-- Below `2 ^ 52` units all magnitudes are represented. -/
theorem spacing_of_lt {units : Nat} (h : units < 2 ^ 52) : spacing units = 1 := by
  have hlog : units.log2 - 52 = 0 := by
    rcases Nat.eq_zero_or_pos units with rfl | hpos
    · rfl
    · have := (Nat.log2_lt (Nat.ne_of_gt hpos)).mpr h
      omega
  unfold spacing
  rw [hlog]

/-- From `2 ^ 52` units on, a magnitude is at least `2 ^ 52` times the spacing around it. -/
theorem spacing_mul_le {units : Nat} (h : 2 ^ 52 ≤ units) : 2 ^ 52 * spacing units ≤ units := by
  have hne : units ≠ 0 := by
    rintro rfl
    exact absurd h (by decide)
  have hlog : 52 ≤ units.log2 := (Nat.le_log2 hne).mpr h
  have hpow : 2 ^ 52 * spacing units = 2 ^ units.log2 := by
    unfold spacing
    rw [Nat.pow_eq, ← Nat.pow_add, Nat.add_sub_cancel' hlog]
  rw [hpow]
  exact Nat.log2_self_le hne

/-- A power of two is a multiple of the spacing around magnitudes that a significand counts in
it. -/
theorem spacing_dvd {units k : Nat} (h : units < 2 ^ 53 * Nat.pow 2 k) :
    spacing units ∣ Nat.pow 2 k := by
  have hlog : units.log2 - 52 ≤ k := by
    rcases Nat.eq_zero_or_pos units with rfl | hpos
    · exact Nat.zero_le _
    · rw [Nat.pow_eq, ← Nat.pow_add] at h
      have := (Nat.log2_lt (Nat.ne_of_gt hpos)).mpr h
      omega
  exact Nat.pow_dvd_pow 2 hlog

variable {num den bound : Nat}

theorem roundUnits_le (hb : spacing (num / den) ∣ bound) (h : num ≤ bound * den) :
    roundUnits num den ≤ bound := by
  obtain ⟨m, hm⟩ := hb
  unfold roundUnits
  dsimp only
  generalize spacing (num / den) = step at hm
  subst hm
  have hround : roundHalfEven num (den * step) ≤ m := by
    apply roundHalfEven_le
    calc num ≤ step * m * den := h
      _ = m * (den * step) := by rw [Nat.mul_comm step, Nat.mul_assoc, Nat.mul_comm step]
  calc roundHalfEven num (den * step) * step ≤ m * step := Nat.mul_le_mul_right step hround
    _ = step * m := Nat.mul_comm m step

theorem le_roundUnits (hden : 0 < den) (hb : spacing (num / den) ∣ bound)
    (h : bound * den ≤ num) : bound ≤ roundUnits num den := by
  obtain ⟨m, hm⟩ := hb
  have hstep := spacing_pos (num / den)
  unfold roundUnits
  dsimp only
  generalize spacing (num / den) = step at hm hstep
  subst hm
  have hround : m ≤ roundHalfEven num (den * step) := by
    apply le_roundHalfEven (Nat.mul_pos hden hstep)
    calc m * (den * step) = step * m * den := by
          rw [Nat.mul_comm step, Nat.mul_assoc, Nat.mul_comm step]
      _ ≤ num := h
  calc step * m = m * step := Nat.mul_comm step m
    _ ≤ roundHalfEven num (den * step) * step := Nat.mul_le_mul_right step hround

theorem lt_roundUnits (hden : 0 < den) (hb : spacing (num / den) ∣ bound)
    (h : 2 * (bound * den) + den * spacing (num / den) < 2 * num) :
    bound < roundUnits num den := by
  obtain ⟨m, hm⟩ := hb
  have hstep := spacing_pos (num / den)
  unfold roundUnits
  dsimp only
  generalize spacing (num / den) = step at hm hstep h
  subst hm
  have hround : m < roundHalfEven num (den * step) := by
    apply lt_roundHalfEven (Nat.mul_pos hden hstep)
    have hmul : m * (den * step) = step * m * den := by
      rw [Nat.mul_comm step, Nat.mul_assoc, Nat.mul_comm step]
    rw [hmul]
    exact h
  calc step * m = m * step := Nat.mul_comm step m
    _ < roundHalfEven num (den * step) * step := Nat.mul_lt_mul_of_pos_right hround hstep

/-- A quotient of at most half the least positive number is rounded to zero. -/
theorem roundUnits_of_le_half (hhalf : 2 * num ≤ den) : roundUnits num den = 0 := by
  rcases Nat.eq_zero_or_pos num with rfl | hnum
  · have hzero : roundUnits 0 den ≤ 0 := roundUnits_le (Nat.dvd_zero _) (Nat.zero_le _)
    exact Nat.le_zero.mp hzero
  · have hlt : num < den := by omega
    unfold roundUnits
    dsimp only
    rw [Nat.div_eq_of_lt hlt, spacing_of_lt (by decide), Nat.mul_one, Nat.mul_one]
    exact roundHalfEven_of_le_half hhalf hnum

/-! ### Represented bounds -/

/-- Whether a 53-bit significand holds a magnitude: it is a multiple of the spacing around it. -/
def Represented (units : Nat) : Prop := spacing units ∣ units

theorem log2_le_log2 {m n : Nat} (h : m ≤ n) : m.log2 ≤ n.log2 := by
  rcases Nat.eq_zero_or_pos m with rfl | hm
  · exact Nat.zero_le _
  · rw [Nat.le_log2 (Nat.ne_of_gt (Nat.lt_of_lt_of_le hm h))]
    exact Nat.le_trans (Nat.log2_self_le (Nat.ne_of_gt hm)) h

theorem spacing_dvd_spacing {m n : Nat} (h : m ≤ n) : spacing m ∣ spacing n :=
  Nat.pow_dvd_pow 2 (Nat.sub_le_sub_right (log2_le_log2 h) 52)

theorem Represented.roundUnits_le (hb : Represented bound) (h : num ≤ bound * den) :
    roundUnits num den ≤ bound := by
  have hle : num / den ≤ bound := Nat.div_le_of_le_mul (by rwa [Nat.mul_comm])
  exact Binary64.roundUnits_le ((spacing_dvd_spacing hle).trans hb) h

theorem Represented.le_roundUnits (hb : Represented bound) (hden : 0 < den)
    (h : bound * den ≤ num) : bound ≤ roundUnits num den := by
  have hle : bound ≤ num / den := (Nat.le_div_iff_mul_le hden).mpr h
  rcases Nat.eq_zero_or_pos bound with rfl | hpos
  · exact Nat.zero_le _
  have hne : num / den ≠ 0 := Nat.ne_of_gt (Nat.lt_of_lt_of_le hpos hle)
  -- the greatest power of two that the quotient reaches is a multiple of the spacing around it
  have hleading : 2 ^ (num / den).log2 ≤ roundUnits num den := by
    refine Binary64.le_roundUnits hden (Nat.pow_dvd_pow 2 (Nat.sub_le _ _)) ?_
    exact (Nat.le_div_iff_mul_le hden).mp (Nat.log2_self_le hne)
  rcases Nat.lt_or_ge bound (2 ^ (num / den).log2) with hlt | hge
  · exact Nat.le_trans (Nat.le_of_lt hlt) hleading
  · -- the bound reaches that power as well, and has the same spacing around it
    have hlog : (num / den).log2 = bound.log2 :=
      Nat.le_antisymm ((Nat.le_log2 (Nat.ne_of_gt hpos)).mpr hge) (log2_le_log2 hle)
    have hspacing : spacing (num / den) = spacing bound := by
      unfold spacing
      rw [hlog]
    exact Binary64.le_roundUnits hden (hspacing ▸ hb) h

/-! ### Quotients of integers that a significand holds -/

section Quotients

variable {n d c k : Nat}

theorem two_pow_pos (k : Nat) : 0 < Nat.pow 2 k := Nat.pow_pos (by decide)

theorem two_pow_mul_le {j k m : Nat} (h : j + k ≤ m) : 2 ^ j * Nat.pow 2 k ≤ Nat.pow 2 m := by
  rw [Nat.pow_eq, Nat.pow_eq, ← Nat.pow_add]
  exact Nat.pow_le_pow_right (by decide) h

theorem mul_two_pow_lt (hn : n < 2 ^ 53) : n * Nat.pow 2 k < 2 ^ 53 * Nat.pow 2 k :=
  Nat.mul_lt_mul_of_pos_right hn (two_pow_pos k)

/-- Integers up to `2 ^ 53` are represented, in units that are a power of two. -/
theorem represented_mul_two_pow (hn : n ≤ 2 ^ 53) : Represented (n * Nat.pow 2 k) := by
  unfold Represented
  rcases Nat.lt_or_eq_of_le hn with hlt | rfl
  · exact (spacing_dvd (mul_two_pow_lt hlt)).mul_left n
  · have hpow : Nat.pow 2 (k + 1) = 2 * Nat.pow 2 k := Nat.pow_succ'
    have hpos := two_pow_pos k
    have hdvd : spacing (2 ^ 53 * Nat.pow 2 k) ∣ Nat.pow 2 (k + 1) :=
      spacing_dvd (by omega)
    refine hdvd.trans ⟨2 ^ 52, ?_⟩
    omega

theorem spacing_quotient_dvd (hn : n < 2 ^ 53) :
    spacing (n * Nat.pow 2 k / d) ∣ Nat.pow 2 k :=
  spacing_dvd (Nat.lt_of_le_of_lt (Nat.div_le_self _ _) (mul_two_pow_lt hn))

theorem roundUnits_quotient_le (hn : n < 2 ^ 53) (hc : n ≤ c * d) :
    roundUnits (n * Nat.pow 2 k) d ≤ c * Nat.pow 2 k := by
  apply roundUnits_le ((spacing_quotient_dvd hn).mul_left c)
  calc n * Nat.pow 2 k ≤ c * d * Nat.pow 2 k := Nat.mul_le_mul_right _ hc
    _ = c * Nat.pow 2 k * d := by rw [Nat.mul_right_comm]

/-- The spacing around such a quotient is less than twice what the divisor makes of one, unless the
quotient is at most half a unit. -/
theorem divisor_mul_spacing_lt (hk : 53 ≤ k) (hd : 0 < d) (hn : n < 2 ^ 53) (hc : c * d < n)
    (hhalf : d < 2 * (n * Nat.pow 2 k)) :
    d * spacing (n * Nat.pow 2 k / d) < 2 * ((n - c * d) * Nat.pow 2 k) := by
  have hgap : Nat.pow 2 k ≤ (n - c * d) * Nat.pow 2 k :=
    Nat.le_mul_of_pos_left _ (Nat.sub_pos_of_lt hc)
  rcases Nat.lt_or_ge (n * Nat.pow 2 k / d) (2 ^ 52) with hsmall | hlarge
  · rw [spacing_of_lt hsmall, Nat.mul_one]
    rcases Nat.eq_zero_or_pos c with rfl | hpos
    · rwa [Nat.zero_mul, Nat.sub_zero]
    · -- the divisor is below the integer, which is below one in units
      have hdn : d ≤ c * d := Nat.le_mul_of_pos_left d hpos
      have hone : 2 ^ 53 * Nat.pow 2 0 ≤ Nat.pow 2 k := two_pow_mul_le hk
      rw [Nat.pow_eq, Nat.pow_zero, Nat.mul_one] at hone
      omega
  · have hspacing := spacing_mul_le hlarge
    have hnum : 2 ^ 52 * spacing (n * Nat.pow 2 k / d) * d ≤ n * Nat.pow 2 k :=
      (Nat.le_div_iff_mul_le hd).mp hspacing
    have hbound := mul_two_pow_lt (k := k) hn
    rw [Nat.mul_assoc, Nat.mul_comm _ d] at hnum
    omega

theorem lt_roundUnits_quotient (hk : 53 ≤ k) (hd : 0 < d) (hn : n < 2 ^ 53) (hc : c * d < n)
    (hhalf : d < 2 * (n * Nat.pow 2 k)) :
    c * Nat.pow 2 k < roundUnits (n * Nat.pow 2 k) d := by
  apply lt_roundUnits hd ((spacing_quotient_dvd hn).mul_left c)
  have hspacing := divisor_mul_spacing_lt hk hd hn hc hhalf
  have hsplit : c * Nat.pow 2 k * d + (n - c * d) * Nat.pow 2 k = n * Nat.pow 2 k := by
    rw [Nat.mul_right_comm, ← Nat.add_mul, Nat.add_sub_cancel' (Nat.le_of_lt hc)]
  omega

end Quotients

/-! ### Ceilings -/

/-- The ceiling of a quotient lies between two neighbouring integers. -/
theorem neg_ediv_neg_eq {a b c : Nat} (hlow : c * b < a) (hhigh : a ≤ (c + 1) * b) :
    -(-(a : Int) / (b : Int)) = ((c + 1 : Nat) : Int) := by
  have hb : (0 : Int) < b := by
    rcases Nat.eq_zero_or_pos b with rfl | hpos
    · omega
    · exact Int.natCast_pos.mpr hpos
  have hlow : (c : Int) * b < a := by
    rw [← Int.natCast_mul]
    exact Int.ofNat_lt.mpr hlow
  have hhigh : (a : Int) ≤ (c + 1 : Nat) * b := by
    rw [← Int.natCast_mul]
    exact Int.ofNat_le.mpr hhigh
  have hupper : -(a : Int) / b < -(c : Int) := by
    rw [Int.ediv_lt_iff_lt_mul hb, Int.neg_mul]
    omega
  have hlower : -((c + 1 : Nat) : Int) ≤ -(a : Int) / b := by
    rw [Int.le_ediv_iff_mul_le hb, Int.neg_mul]
    omega
  omega

variable {n d : Nat}

/-- One and the first magnitude that is too large are powers of two, far apart. -/
theorem exists_exponents : ∃ k m, unitsOfOne = Nat.pow 2 k ∧ overflowUnits = Nat.pow 2 m ∧
    53 ≤ k ∧ 53 + k < m := by
  refine ⟨1074, 2098, ?_, ?_, by decide, by decide⟩
  · unfold unitsOfOne
    rfl
  · unfold overflowUnits
    rfl

theorem unitsOfOne_pos : 0 < unitsOfOne := by
  obtain ⟨k, -, hone, -⟩ := exists_exponents
  rw [hone]
  exact two_pow_pos k

theorem ofQuotient_of_lt {negative : Bool} (h : roundUnits num den < overflowUnits) :
    ofQuotient negative num den = .finite negative (roundUnits num den) := by
  unfold ofQuotient
  rw [if_pos h]

theorem represented_units (hn : n ≤ 2 ^ 53) : Represented (n * unitsOfOne) := by
  obtain ⟨k, -, hone, -⟩ := exists_exponents
  rw [hone]
  exact represented_mul_two_pow hn

/-- The quotient of an integer is finite when no more than `2 ^ 53` is reached. -/
theorem ofIntQuotient?_of_le {n : Int} (hd : 0 < d) (hn : n.natAbs ≤ 2 ^ 53 * d) :
    ofIntQuotient? n d = some (finite (n < 0) (roundUnits (n.natAbs * unitsOfOne) d)) := by
  have hlt : roundUnits (n.natAbs * unitsOfOne) d < overflowUnits := by
    obtain ⟨k, m, hone, hmax, -, hkm⟩ := exists_exponents
    have hle : roundUnits (n.natAbs * unitsOfOne) d ≤ 2 ^ 53 * unitsOfOne := by
      apply (represented_units (Nat.le_refl _)).roundUnits_le
      rw [Nat.mul_right_comm]
      exact Nat.mul_le_mul_right _ hn
    rw [hone] at hle
    rw [hone, hmax]
    calc roundUnits (n.natAbs * Nat.pow 2 k) d ≤ 2 ^ 53 * Nat.pow 2 k := hle
      _ = Nat.pow 2 (53 + k) := (Nat.pow_add 2 53 k).symm
      _ < Nat.pow 2 m := Nat.pow_lt_pow_right (by decide) hkm
  have hsign : (decide (n < 0) != decide ((d : Int) < 0)) = decide (n < 0) := by
    rw [decide_eq_false (p := (d : Int) < 0) (by omega), Bool.bne_false]
  unfold ofIntQuotient?
  rw [hsign, Int.natAbs_natCast, ofQuotient_of_lt hlt]
  rfl

/-- The quotient of a natural number that a significand holds by another is finite. -/
theorem ofIntQuotient?_eq (hd : 0 < d) (hn : n < 2 ^ 53) :
    ofIntQuotient? n d = some (finite false (roundUnits (n * unitsOfOne) d)) := by
  have hle : (n : Int).natAbs ≤ 2 ^ 53 * d := by
    rw [Int.natAbs_natCast]
    exact Nat.le_trans (Nat.le_of_lt hn) (Nat.le_mul_of_pos_right _ hd)
  rw [ofIntQuotient?_of_le hd hle, Int.natAbs_natCast, decide_eq_false (by omega)]

/-- The ceiling of a quotient, or zero where the quotient is at most half the least positive
number. -/
def ceilQuotient (n d : Nat) : Nat := if d < 2 * (n * unitsOfOne) then n ⌈/⌉ d else 0

/-- The ceiling of the rounded quotient is that of the exact one, where it is not rounded to
zero. -/
theorem ceil_quotient (hd : 0 < d) (hn : n < 2 ^ 53) :
    (finite false (roundUnits (n * unitsOfOne) d)).ceil = .ok (ceilQuotient n d : Int) := by
  unfold ceilQuotient
  show Except.ok (-(-((roundUnits (n * unitsOfOne) d : Nat) : Int) / (unitsOfOne : Int))) = _
  obtain ⟨k, -, hone, -, hk, -⟩ := exists_exponents
  rw [hone]
  refine congrArg Except.ok ?_
  by_cases hhalf : d < 2 * (n * Nat.pow 2 k)
  · rw [if_pos hhalf]
    have hpos : 0 < n := by
      rcases Nat.eq_zero_or_pos n with rfl | hpos
      · rw [Nat.zero_mul] at hhalf
        exact absurd hhalf (Nat.not_lt_zero d)
      · exact hpos
    -- the exact ceiling is a successor, and the quotient lies above its predecessor
    obtain ⟨c, hc⟩ : ∃ c, n ⌈/⌉ d = c + 1 := by
      refine Nat.exists_eq_succ_of_ne_zero fun hzero => ?_
      have hle := (ceilDiv_le_iff_le_mul hd).mp (Nat.le_of_eq hzero)
      rw [Nat.mul_zero] at hle
      exact absurd hpos (Nat.not_lt.mpr hle)
    have hhigh : n ≤ (c + 1) * d := by
      rw [Nat.mul_comm]
      exact (ceilDiv_le_iff_le_mul hd).mp (Nat.le_of_eq hc)
    have hlow : c * d < n := by
      rw [← Nat.not_le, Nat.mul_comm, ← ceilDiv_le_iff_le_mul hd, hc]
      exact Nat.not_succ_le_self c
    rw [hc]
    exact neg_ediv_neg_eq (lt_roundUnits_quotient hk hd hn hlow hhalf)
      (roundUnits_quotient_le hn hhigh)
  · rw [if_neg hhalf, roundUnits_of_le_half (Nat.not_lt.mp hhalf), Int.natCast_zero, Int.neg_zero,
      Int.zero_ediv, Int.neg_zero]

end Binary64
end RecordQuery
