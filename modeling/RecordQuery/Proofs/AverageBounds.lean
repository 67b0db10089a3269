import Mathlib.Algebra.Order.BigOperators.Group.List
import Mathlib.Algebra.Order.Ring.Int
import RecordQuery.Proofs.IntegerSums
import RecordQuery.Proofs.OrderedExtrema
import RecordQuery.Proofs.Rounding

/-! # Averages between the extrema

An average divides the exact sum of the integers of a field by the number of all matched sources and
rounds the quotient once.  Sources without a value take part in the division and not in the sum, so
they count as zero: the values that bound the average are those of `bounding`, the present ones and
a zero where one is absent.

The exact quotient lies between the least and the greatest of them.  Where both are integers of at
most `2 ^ 53` either way they are `Represented`, and rounding does not cross them, whatever the
signs (`quotientUnits_le`, `le_quotientUnits`, `exists_mean`).  The main statement is
`average_between`. -/

namespace RecordQuery

/-! ### Quotients of either sign -/

namespace Binary64

variable {n c : Int} {d : Nat}

/-- The quotient of an integer by a natural number in units, rounded to the nearest number. -/
def quotientUnits (n : Int) (d : Nat) : Int :=
  signed (n < 0) (roundUnits (n.natAbs * unitsOfOne) d)

theorem quotientUnits_of_neg (h : n < 0) :
    quotientUnits n d = -(roundUnits (n.natAbs * unitsOfOne) d : Int) := by
  unfold quotientUnits signed
  rw [decide_eq_true h, if_pos rfl]

theorem quotientUnits_of_nonneg (h : 0 ≤ n) :
    quotientUnits n d = (roundUnits (n.natAbs * unitsOfOne) d : Int) := by
  unfold quotientUnits signed
  rw [decide_eq_false (Int.not_lt.mpr h), if_neg Bool.false_ne_true]

theorem quotientUnits_neg (n : Int) (d : Nat) : quotientUnits (-n) d = -quotientUnits n d := by
  rcases Int.lt_trichotomy n 0 with hneg | rfl | hpos
  · rw [quotientUnits_of_neg hneg, quotientUnits_of_nonneg (by omega), Int.natAbs_neg, Int.neg_neg]
  · rw [Int.neg_zero, quotientUnits_of_nonneg (Int.le_refl 0), Int.natAbs_zero, Nat.zero_mul,
      roundUnits_of_le_half (Nat.zero_le _)]
    rfl
  · rw [quotientUnits_of_neg (by omega), quotientUnits_of_nonneg (by omega), Int.natAbs_neg]

/-- An integer that a significand holds bounds a rounded quotient when it bounds the exact one. -/
theorem quotientUnits_le (hd : 0 < d) (hc : c.natAbs ≤ 2 ^ 53) (h : n ≤ c * d) :
    quotientUnits n d ≤ c * unitsOfOne := by
  have hbound := represented_units hc
  have hmul : (c * d).natAbs = c.natAbs * d := by rw [Int.natAbs_mul, Int.natAbs_natCast]
  have hone : (0 : Int) ≤ (unitsOfOne : Int) := Int.natCast_nonneg _
  rcases lt_or_ge c 0 with hneg | hnonneg
  · -- the quotient is negative as well, and has the greater magnitude
    have hcd : c * d < 0 := Int.mul_neg_of_neg_of_pos hneg (Int.natCast_pos.mpr hd)
    have hround : c.natAbs * unitsOfOne ≤ roundUnits (n.natAbs * unitsOfOne) d := by
      apply hbound.le_roundUnits hd
      rw [Nat.mul_right_comm, ← hmul]
      exact Nat.mul_le_mul_right _ (by omega)
    have hunits : c * unitsOfOne = -((c.natAbs * unitsOfOne : Nat) : Int) := by
      rw [Int.natCast_mul, Int.ofNat_natAbs_of_nonpos (Int.le_of_lt hneg), Int.neg_mul, Int.neg_neg]
    rw [quotientUnits_of_neg (Int.lt_of_le_of_lt h hcd), hunits]
    exact Int.neg_le_neg (Int.ofNat_le.mpr hround)
  · rcases lt_or_ge n 0 with hn | hn
    · rw [quotientUnits_of_neg hn]
      have hunits : 0 ≤ c * unitsOfOne := Int.mul_nonneg hnonneg hone
      omega
    · have hround : roundUnits (n.natAbs * unitsOfOne) d ≤ c.natAbs * unitsOfOne := by
        apply hbound.roundUnits_le
        rw [Nat.mul_right_comm, ← hmul]
        exact Nat.mul_le_mul_right _ (by omega)
      have hunits : c * unitsOfOne = ((c.natAbs * unitsOfOne : Nat) : Int) := by
        rw [Int.natCast_mul, Int.natAbs_of_nonneg hnonneg]
      rw [quotientUnits_of_nonneg hn, hunits]
      exact Int.ofNat_le.mpr hround

theorem le_quotientUnits (hd : 0 < d) (hc : c.natAbs ≤ 2 ^ 53) (h : c * d ≤ n) :
    c * unitsOfOne ≤ quotientUnits n d := by
  have hneg : quotientUnits (-n) d ≤ -c * unitsOfOne := by
    apply quotientUnits_le hd (by rwa [Int.natAbs_neg])
    rw [Int.neg_mul]
    exact Int.neg_le_neg h
  rw [quotientUnits_neg, Int.neg_mul] at hneg
  exact Int.le_of_neg_le_neg hneg

/-! ### Means -/

theorem sum_between {ns : List Int} {lo hi : Int} (h : ∀ n ∈ ns, lo ≤ n ∧ n ≤ hi) :
    lo * ns.length ≤ ns.sum ∧ ns.sum ≤ hi * ns.length := by
  have hlow := List.card_nsmul_le_sum ns lo fun n hn => (h n hn).1
  have hhigh := List.sum_le_card_nsmul ns hi fun n hn => (h n hn).2
  rw [nsmul_eq_mul, mul_comm] at hlow hhigh
  exact ⟨hlow, hhigh⟩

/-- The sum of integers by their number is rounded to a finite number, which lies between bounds of
the integers that a significand holds. -/
theorem exists_mean {ns : List Int} {lo hi : Int} (hne : ns ≠ []) (hlo : lo.natAbs ≤ 2 ^ 53)
    (hhi : hi.natAbs ≤ 2 ^ 53) (h : ∀ n ∈ ns, lo ≤ n ∧ n ≤ hi) :
    ∃ q units, ofIntQuotient? ns.sum ns.length = some q ∧
      (Number.float q).position? = some ⟨0, units⟩ ∧
      lo * unitsOfOne ≤ units ∧ units ≤ hi * unitsOfOne := by
  have hd : 0 < ns.length := List.length_pos_iff.mpr hne
  have hsum := sum_between h
  -- the bounds are themselves between the two integers beyond which rounding starts
  have hall : ∀ n ∈ ns, -2 ^ 53 ≤ n ∧ n ≤ 2 ^ 53 := by
    intro n hn
    have hn := h n hn
    omega
  have hbound := sum_between hall
  exact ⟨_, quotientUnits ns.sum ns.length, ofIntQuotient?_of_le hd (by omega), rfl,
    le_quotientUnits hd hlo hsum.1, quotientUnits_le hd hhi hsum.2⟩

end Binary64

/-! ### Integers as values -/

namespace Value

variable {v w : Value}

theorem isOrderedNumber_of_position? {n : Number} {p : Position} (hv : v.number? = some n)
    (hp : n.position? = some p) : v.IsOrderedNumber := by
  refine ⟨Option.isSome_iff_exists.mpr ⟨n, hv⟩, ?_⟩
  rw [isNaN_of_number? hv, Number.isNaN_eq, identity_of_position? hp]
  rfl

theorem point_of_position? {n : Number} {p : Position} (hv : v.number? = some n)
    (hp : n.position? = some p) : v.point = toLex (p.side, p.units) := by
  unfold point
  rw [hv, Option.bind_some, hp]

theorem position?_int (n : Int) :
    (Number.int n).position? = some ⟨0, n * Binary64.unitsOfOne⟩ := rfl

theorem isOrderedNumber_of_isInteger (h : v.IsInteger) : v.IsOrderedNumber :=
  isOrderedNumber_of_position? (number?_of_isInteger h) (position?_int _)

theorem point_of_isInteger (h : v.IsInteger) :
    v.point = toLex (0, v.toInt * Binary64.unitsOfOne) :=
  point_of_position? (number?_of_isInteger h) (position?_int _)

theorem toLex_units_le_iff {m n : Int} :
    (toLex (0, m) : Int ×ₗ Int) ≤ toLex (0, n) ↔ m ≤ n := by
  rw [Prod.Lex.toLex_le_toLex]
  simp

theorem point_le_iff_of_isInteger (hv : v.IsInteger) (hw : w.IsInteger) :
    v.point ≤ w.point ↔ v.toInt ≤ w.toInt := by
  have hone : (0 : Int) < (Binary64.unitsOfOne : Int) :=
    Int.natCast_pos.mpr Binary64.unitsOfOne_pos
  rw [point_of_isInteger hv, point_of_isInteger hw, toLex_units_le_iff]
  exact Int.mul_le_mul_iff_of_pos_right hone

/-- Finite numbers compare as their units do. -/
theorem atMost_iff_units {m n : Number} {a b : Int} (hv : v.number? = some m)
    (hm : m.position? = some ⟨0, a⟩) (hw : w.number? = some n)
    (hn : n.position? = some ⟨0, b⟩) : v.atMost w ↔ a ≤ b := by
  have hkey : MeasuredBy point [v, w] := by
    refine measuredBy_point ?_
    simp [isOrderedNumber_of_position? hv hm, isOrderedNumber_of_position? hw hn]
  rw [hkey.atMost_iff (by simp) (by simp), point_of_position? hv hm, point_of_position? hw hn,
    toLex_units_le_iff]

theorem div_of_number? {n : Int} {d : Nat} {q : Binary64} (hd : 0 < d)
    (hv : v.number? = some (.int n)) (hq : Binary64.ofIntQuotient? n d = some q) :
    v.div (.int d) = .ok (.number (.float q)) := by
  have hne : (d : Int) ≠ 0 := by omega
  have hdiv : Number.div (.int n) (.int d) = .ok q := by
    rw [Number.div, if_neg hne, hq]
  have hd' : (Value.int d).number? = some (.int d) := rfl
  unfold div onNumbers
  rw [hv, hd']
  show ofArithmetic ((Number.div (.int n) (.int d)).map .float) = _
  rw [hdiv]
  rfl

end Value

namespace Context

/-! ### Values that bound an average -/

/-- The values that bound an average: those that are present, and zero where one is absent. -/
def bounding (values : List Value) : List Value :=
  values.filter isPresent ++ if values.all isPresent then [] else [.int 0]

variable {values : List Value}

theorem toInt_of_not_present {v : Value} (h : isPresent v = false) : v.toInt = 0 := by
  cases v with
  | null => rfl
  | _ => exact nomatch h

theorem sum_toInt_present (values : List Value) :
    ((values.filter isPresent).map Value.toInt).sum = (values.map Value.toInt).sum := by
  induction values with
  | nil => rfl
  | cons v values ih =>
      rw [List.map_cons, List.sum_cons]
      cases hv : isPresent v with
      | true => rw [List.filter_cons_of_pos hv, List.map_cons, List.sum_cons, ih]
      | false =>
          rw [List.filter_cons_of_neg (by rw [hv]; exact Bool.false_ne_true),
            toInt_of_not_present hv, Int.zero_add, ih]

theorem forall_bounding {p : Value → Prop} (hzero : p (.int 0))
    (h : ∀ v ∈ values.filter isPresent, p v) : ∀ b ∈ bounding values, p b := by
  intro b hb
  rcases List.mem_append.mp hb with hb | hb
  · exact h b hb
  · split at hb
    · exact nomatch hb
    · rw [List.mem_singleton.mp hb]
      exact hzero

/-- Every value stands for an integer that one of the bounding values stands for. -/
theorem exists_bounding {v : Value} (hv : v ∈ values) :
    ∃ b ∈ bounding values, b.toInt = v.toInt := by
  cases hpresent : isPresent v with
  | true => exact ⟨v, List.mem_append_left _ (List.mem_filter.mpr ⟨hv, hpresent⟩), rfl⟩
  | false =>
      have hall : ¬values.all isPresent = true := by
        intro hall
        rw [List.all_eq_true.mp hall v hv] at hpresent
        exact nomatch hpresent
      refine ⟨.int 0, List.mem_append_right _ ?_, ?_⟩
      · rw [if_neg hall]
        exact List.mem_singleton_self _
      · rw [toInt_of_not_present hpresent]
        rfl

/-- Some values have a least and a greatest bounding value, when those that are present are
integers. -/
theorem exists_extrema_bounding (hne : values ≠ [])
    (hint : ∀ v ∈ values.filter isPresent, v.IsInteger) :
    ∃ least ∈ bounding values, ∃ greatest ∈ bounding values,
      Value.minimum? (bounding values) = .ok (some least) ∧
      Value.maximum? (bounding values) = .ok (some greatest) ∧
      ∀ v ∈ values, least.toInt ≤ v.toInt ∧ v.toInt ≤ greatest.toInt := by
  have hintegers : ∀ b ∈ bounding values, b.IsInteger := forall_bounding (.inl rfl) hint
  have horder := Value.orderedBy_point fun b hb =>
    Value.isOrderedNumber_of_isInteger (hintegers b hb)
  have hbounding : bounding values ≠ [] := by
    obtain ⟨v, hv⟩ := List.exists_mem_of_ne_nil values hne
    obtain ⟨b, hb, -⟩ := exists_bounding hv
    exact List.ne_nil_of_mem hb
  obtain ⟨least, hleast, greatest, hgreatest, hminimum, hmaximum⟩ :=
    horder.exists_least_and_greatest hbounding
  have hl := List.argmin_mem hleast
  have hg := List.argmax_mem hgreatest
  refine ⟨least, hl, greatest, hg, hminimum, hmaximum, fun v hv => ?_⟩
  obtain ⟨b, hb, hbv⟩ := exists_bounding hv
  rw [← hbv, ← Value.point_le_iff_of_isInteger (hintegers _ hl) (hintegers b hb),
    ← Value.point_le_iff_of_isInteger (hintegers b hb) (hintegers _ hg)]
  exact ⟨List.le_of_mem_argmin hb hleast, List.le_of_mem_argmax hb hgreatest⟩

/-! ### Averages -/

variable {x : Context} {name : String}

theorem length_valuesOf (c : Criteria) (name : String) :
    (c.valuesOf name).length = c.selection.length := List.length_map _

/-- The average of integers is the rounded quotient of the sum of what all values stand for. -/
theorem average_eq (hc : x.criteria.WellPosed) (hne : x.criteria.selection ≠ [])
    (hint : ∀ v ∈ x.criteria.presentOf name, v.IsInteger) {q : Binary64}
    (hq : Binary64.ofIntQuotient? ((x.criteria.valuesOf name).map Value.toInt).sum
      (x.criteria.valuesOf name).length = some q) :
    x.average (.text name) = .ok (.number (.float q)) := by
  have hpos : 0 < x.criteria.selection.length := List.length_pos_iff.mpr hne
  obtain ⟨total, htotal, hnumber⟩ := gridSum_integers hint
  have hpresent : x.criteria.presentOf name = (x.criteria.valuesOf name).filter isPresent := rfl
  rw [hpresent, sum_toInt_present] at hnumber
  rw [length_valuesOf] at hq
  unfold average
  rw [count_eq hc, sum_eq hc, htotal]
  show (if x.criteria.selection.length = 0 then _ else total.div _) = _
  rw [if_neg (Nat.ne_of_gt hpos)]
  exact Value.div_of_number? hpos hnumber hq

/-- The extrema of the bounding values are those of the field where no value is absent. -/
theorem extrema_of_bounding (hc : x.criteria.WellPosed) {least greatest : Value}
    (hall : ∀ v ∈ x.criteria.valuesOf name, isPresent v = true)
    (hleast : Value.minimum? (bounding (x.criteria.valuesOf name)) = .ok (some least))
    (hgreatest : Value.maximum? (bounding (x.criteria.valuesOf name)) = .ok (some greatest)) :
    x.minimum (.text name) = .ok least ∧ x.maximum (.text name) = .ok greatest := by
  have hbounding : bounding (x.criteria.valuesOf name) = x.criteria.presentOf name := by
    unfold bounding
    rw [if_pos (List.all_eq_true.mpr hall), List.append_nil]
    rfl
  rw [hbounding] at hleast hgreatest
  rw [minimum_eq_extremum, maximum_eq_extremum]
  exact ⟨extremum_eq hc hleast, extremum_eq hc hgreatest⟩

/-- Where all present values of a field are integers or truth values of at most `2 ^ 53` either way,
the average of the field over some sources is the rounded quotient of their sum by the number of
sources, and lies between the least and the greatest of the values that bound it.  These are the
extrema of the field where no value is absent. -/
theorem average_between (hc : x.criteria.WellPosed) (hne : x.criteria.selection ≠ [])
    (hint : ∀ v ∈ x.criteria.presentOf name, v.IsInteger ∧ v.toInt.natAbs ≤ 2 ^ 53) :
    ∃ (values : List Value) (least greatest : Value) (q : Binary64),
      (x.matched >>= Value.fieldsOf (.text name)) = .ok values ∧
      Value.minimum? (bounding values) = .ok (some least) ∧
      Value.maximum? (bounding values) = .ok (some greatest) ∧
      ((∀ v ∈ values, isPresent v = true) →
        x.minimum (.text name) = .ok least ∧ x.maximum (.text name) = .ok greatest) ∧
      x.average (.text name) = .ok (.number (.float q)) ∧
      Binary64.ofIntQuotient? (values.map Value.toInt).sum values.length = some q ∧
      least.atMost (.number (.float q)) ∧ (Value.number (.float q)).atMost greatest := by
  have hvalues : x.criteria.valuesOf name ≠ [] := fun h => hne (List.map_eq_nil_iff.mp h)
  obtain ⟨least, hl, greatest, hg, hminimum, hmaximum, hbetween⟩ :=
    exists_extrema_bounding hvalues fun v hv => (hint v hv).1
  have hexact : ∀ b ∈ bounding (x.criteria.valuesOf name),
      b.IsInteger ∧ b.toInt.natAbs ≤ 2 ^ 53 := forall_bounding ⟨.inl rfl, by decide⟩ hint
  obtain ⟨hleast, hlo⟩ := hexact least hl
  obtain ⟨hgreatest, hhi⟩ := hexact greatest hg
  obtain ⟨q, units, hq, hposition, hlow, hhigh⟩ :=
    Binary64.exists_mean (mt List.map_eq_nil_iff.mp hvalues) hlo hhi
      (List.forall_mem_map.mpr hbetween)
  rw [List.length_map] at hq
  refine ⟨_, least, greatest, q, fieldsOf_matched hc name, hminimum, hmaximum,
    fun hall => extrema_of_bounding hc hall hminimum hmaximum,
    average_eq hc hne (fun v hv => (hint v hv).1) hq, hq, ?_, ?_⟩
  · exact (Value.atMost_iff_units (Value.number?_of_isInteger hleast) (Value.position?_int _) rfl
      hposition).mpr hlow
  · exact (Value.atMost_iff_units rfl hposition (Value.number?_of_isInteger hgreatest)
      (Value.position?_int _)).mpr hhigh

/-- The average of two neighbouring integers is rounded to the greater one and does not pass it.
That of a truth value, an absent value and a null one lies between zero and the truth value. -/
theorem average_between_neighbours :
    let query : List Value → Context := fun docs =>
      (Criteria.empty.run [.documents (.list docs)]).context
    let doc : Value → Value := fun v => .document [(.text "n", v)]
    let x := query [doc (.int 9007199254740992), doc (.int 9007199254740991)]
    let y := query [doc (.bool true), .record 0 1 [], doc .null]
    (∃ average : Value, x.average (.text "n") = .ok average ∧
      average.eq (.int 9007199254740992) = true ∧
      ∃ least greatest : Value, x.minimum (.text "n") = .ok least ∧
        x.maximum (.text "n") = .ok greatest ∧ least.atMost average ∧ average.atMost greatest) ∧
    ∃ least greatest average : Value, least.eq (.int 0) = true ∧
      greatest.eq (.bool true) = true ∧ y.average (.text "n") = .ok average ∧
      average.kind = .float ∧ least.atMost average ∧ average.atMost greatest := by
  intro query doc x y
  refine ⟨?_, ?_⟩
  · have hpresent : x.criteria.presentOf "n" = [.int 9007199254740992, .int 9007199254740991] := by
      with_unfolding_all rfl
    have hread : (x.matched >>= Value.fieldsOf (.text "n")) =
        .ok [.int 9007199254740992, .int 9007199254740991] := by with_unfolding_all rfl
    have hint : ∀ v ∈ x.criteria.presentOf "n", v.IsInteger ∧ v.toInt.natAbs ≤ 2 ^ 53 := by
      rw [hpresent]
      simp only [List.forall_mem_cons]
      exact ⟨⟨.inl rfl, by decide⟩, ⟨.inl rfl, by decide⟩, nofun⟩
    have hrounded : ((x.average (.text "n")).toOption.map fun a =>
        a.eq (.int 9007199254740992)) = some true := by decide +kernel
    obtain ⟨values, least, greatest, q, hvalues, -, -, hextrema, haverage, -, hlow, hhigh⟩ :=
      average_between (by decide +kernel) (by decide +kernel) hint
    cases hvalues.symm.trans hread
    obtain ⟨hleast, hgreatest⟩ := hextrema (by decide)
    rw [haverage] at hrounded
    exact ⟨_, haverage, Option.some.inj hrounded, least, greatest, hleast, hgreatest, hlow, hhigh⟩
  · have hpresent : y.criteria.presentOf "n" = [.bool true] := by with_unfolding_all rfl
    have hread : (y.matched >>= Value.fieldsOf (.text "n")) = .ok [.bool true, .null, .null] := by
      with_unfolding_all rfl
    have hint : ∀ v ∈ y.criteria.presentOf "n", v.IsInteger ∧ v.toInt.natAbs ≤ 2 ^ 53 := by
      rw [hpresent]
      simp only [List.forall_mem_cons]
      exact ⟨⟨.inr rfl, by decide⟩, nofun⟩
    have hzero : ((Value.minimum? (bounding [.bool true, .null, .null])).toOption.join.map
        fun v => v.eq (.int 0)) = some true := by decide +kernel
    have hone : ((Value.maximum? (bounding [.bool true, .null, .null])).toOption.join.map
        fun v => v.eq (.bool true)) = some true := by decide +kernel
    obtain ⟨values, least, greatest, q, hvalues, hleast, hgreatest, -, haverage, -, hlow, hhigh⟩ :=
      average_between (by decide +kernel) (by decide +kernel) hint
    cases hvalues.symm.trans hread
    rw [hleast] at hzero
    rw [hgreatest] at hone
    exact ⟨least, greatest, _, Option.some.inj hzero, Option.some.inj hone, haverage, rfl, hlow,
      hhigh⟩

-- the next integer is no longer represented, and its quotient by one lies below it
example : (((Value.int 9007199254740993).div (.int 1)).toOption.map fun q =>
    q.eq (.int 9007199254740992)) = some true := by decide +kernel

end Context
end RecordQuery
