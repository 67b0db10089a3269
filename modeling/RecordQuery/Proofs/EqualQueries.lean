import RecordQuery.Proofs.Congruence

/-! # Equal queries match at the same positions

`Criteria.positions` lists where the sources that match stand; the first stage of a query is read
off this list (`Context.matchesAt_positions`).  Since matching is a congruence
(`Selector.admits_congr`), the list does not change when every source is replaced by an equal one
or the selector by an equal one; this is `equal_queries_agree`. -/

namespace RecordQuery

/-- The positions of the sources that match the selector, where a fault counts as no match. -/
def Criteria.positions (c : Criteria) : List Nat :=
  c.documents.findIdxs (Selector.admits c.selector)

/-! ### Positions in a list -/

theorem filterMap_findIdxs {α : Type} (xs : List α) (p : α → Bool) :
    (xs.findIdxs p).filterMap (xs[·]?) = xs.filter p := by
  induction xs with
  | nil => rfl
  | cons x xs ih =>
      have htail : ((xs.findIdxs p 1).filterMap fun i => (x :: xs)[i]?) = xs.filter p := by
        rw [List.findIdxs_start, List.filterMap_map, ← ih]
        rfl
      rw [List.findIdxs_cons, List.filter_cons]
      by_cases hx : p x = true
      · rw [if_pos hx, if_pos hx, List.filterMap_cons, htail]
        rfl
      · rw [if_neg hx, if_neg hx, htail]

theorem isEmpty_findIdxs {α : Type} (xs : List α) (p : α → Bool) :
    (!(xs.findIdxs p).isEmpty) = xs.any p := by
  rw [Bool.eq_iff_iff]
  simp [List.findIdxs_eq_nil_iff]

theorem findIdxs_congr {α : Type} {r : α → α → Prop} {p q : α → Bool} {xs ys : List α}
    (h : List.Forall₂ r xs ys) (hpq : ∀ x y, r x y → p x = q y) (start : Nat) :
    xs.findIdxs p start = ys.findIdxs q start := by
  induction h generalizing start with
  | nil => rfl
  | cons hxy _ ih => rw [List.findIdxs_cons, List.findIdxs_cons, hpq _ _ hxy, ih]

theorem forall_left_of_forall₂ {α : Type} {r : α → α → Prop} {p : α → Prop} {xs ys : List α}
    (h : List.Forall₂ r xs ys) (hr : ∀ x y, r x y → p x) : ∀ x ∈ xs, p x := by
  induction h with
  | nil => simp
  | cons hxy _ ih => exact List.forall_mem_cons.mpr ⟨hr _ _ hxy, ih⟩

/-! ### Positions of a query -/

/-- Whether a query matches the sources at some positions and nowhere fails. -/
structure Context.MatchesAt (x : Context) (positions : List Nat) : Prop where
  matched : x.matched = .ok (positions.filterMap (x.criteria.documents[·]?))
  count : x.count = .ok positions.length
  hasAny : x.hasAny = .ok (!positions.isEmpty)

theorem Context.matchesAt_positions {x : Context} (h : x.criteria.WellPosed) :
    x.MatchesAt x.criteria.positions := by
  unfold Criteria.positions
  constructor
  · rw [matched_eq h, filterMap_findIdxs]
    rfl
  · rw [count_eq h, List.length_findIdxs, List.countP_eq_length_filter]
    rfl
  · rw [hasAny_eq h, isEmpty_findIdxs]

/-! ### Equal queries -/

/-- Equal selectors answer alike for equal documents, and queries with equal selectors over equal
sources match at the same positions; no such query fails. -/
theorem equal_queries_agree {p q : Dict} (hp : (Value.dict p).wellKeyed = true)
    (hq : (Value.dict q).wellKeyed = true) (hn : Selector.Named p)
    (hpq : (Value.dict p).eq (.dict q) = true) :
    (∀ d e : Dict, (Value.document d).wellKeyed = true → (Value.document e).wellKeyed = true →
      (Value.document d).eq (.document e) = true →
      ∃ answer, Selector.accepts p (.document d) = .ok answer ∧
        Selector.accepts q (.document e) = .ok answer) ∧
    ∀ x y : Context, x.criteria.selector = p → y.criteria.selector = q →
      List.Forall₂ Value.EqualSource x.criteria.documents y.criteria.documents →
      x.MatchesAt x.criteria.positions ∧ y.MatchesAt y.criteria.positions ∧
        x.criteria.positions = y.criteria.positions := by
  obtain ⟨q', hq', hc⟩ := Value.same_dict_iff.mp (Bool.and_eq_true_iff.mp hpq).2
  cases hq'
  have hn' := Selector.named_of_covers hc hn
  have hadm : ∀ s t, Value.EqualSource s t → Selector.admits p s = Selector.admits q t :=
    fun s t hst => Selector.admits_congr hp hq hn hc hst
  constructor
  · intro d e hd he hde
    refine ⟨Selector.admits p (.document d), Selector.accepts_eq rfl hn, ?_⟩
    rw [Selector.accepts_eq rfl hn', hadm _ (.document e) (.inr ⟨d, e, rfl, rfl, hd, he, hde⟩)]
  · rintro x y rfl rfl hxy
    have hx : x.criteria.WellPosed :=
      ⟨forall_left_of_forall₂ hxy fun _ _ h => h.hasFields.1, hn⟩
    have hy : y.criteria.WellPosed :=
      ⟨forall_left_of_forall₂ hxy.flip fun s t (h : Value.EqualSource t s) => h.hasFields.2, hn'⟩
    exact ⟨Context.matchesAt_positions hx, Context.matchesAt_positions hy,
      findIdxs_congr hxy hadm 0⟩

/-- Documents whose entries stand in another order, one with a truth value for a number, and
selectors that differ so and in the kind of a set of candidates. -/
theorem equal_queries_agree_reordered :
    let p : Dict := [(.text "n", .dict [(.text "$in", .set true [.int 1])]), (.text "s", .text "x")]
    let q : Dict :=
      [(.text "s", .text "x"), (.text "n", .dict [(.text "$in", .set false [.bool true])])]
    let d : Value := .document [(.text "n", .int 1), (.text "s", .text "x")]
    let e : Value := .document [(.text "s", .text "x"), (.text "n", .bool true)]
    let r : Value := .record 0 0 [(.text "n", .int 2)]
    let x : Context := (⟨[r, d], p, .empty, .empty, .null, .standard⟩ : Criteria).context
    let y : Context := (⟨[r, e], q, .empty, .empty, .null, .standard⟩ : Criteria).context
    (∃ answer, Selector.accepts p d = .ok answer ∧ Selector.accepts q e = .ok answer) ∧
      x.MatchesAt [1] ∧ y.MatchesAt [1] := by
  intro p q d e r x y
  have hd : d.wellKeyed = true := by decide +kernel
  have he : e.wellKeyed = true := by decide +kernel
  have hde : d.eq e = true := by decide +kernel
  have agree := equal_queries_agree (p := p) (q := q) (by decide +kernel) (by decide +kernel)
    (by decide +kernel) (by decide +kernel)
  have hxy : List.Forall₂ Value.EqualSource x.criteria.documents y.criteria.documents :=
    .cons (.inl ⟨rfl, rfl⟩) (.cons (.inr ⟨_, _, rfl, rfl, hd, he, hde⟩) .nil)
  have hpos : x.criteria.positions = [1] := by decide +kernel
  obtain ⟨hx, hy, hsame⟩ := agree.2 x y rfl rfl hxy
  rw [← hsame, hpos] at hy
  rw [hpos] at hx
  exact ⟨agree.1 _ _ hd he hde, hx, hy⟩

end RecordQuery
