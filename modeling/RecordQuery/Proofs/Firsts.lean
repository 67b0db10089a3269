import Mathlib.Data.List.Induction
import Mathlib.Data.List.Pairwise
import RecordQuery.Value.Equivalence

/-! # The first of related elements

`firsts r xs` keeps an element of a list just when no earlier one is related to it, whether the
earlier one was kept or not.  Where `r` is an equivalence, comparing with the kept ones alone is
enough (`any_related_firsts`): every element is related to one that is kept.  So a scan that
remembers only what it keeps computes `firsts` (`foldl_eq_firsts`).

`firsts_eq_iff` compares two equivalences, one finer than the other: they keep the same elements
just when they agree on the list. -/

namespace RecordQuery

variable {α : Type} {r q : α → α → Bool} {xs : List α}

/-- The elements that none of the earlier ones is related to, where some have come before. -/
def firstsAfter (r : α → α → Bool) (earlier : List α) : List α → List α
  | [] => []
  | x :: xs =>
    if earlier.any (r x) then firstsAfter r (earlier ++ [x]) xs
    else x :: firstsAfter r (earlier ++ [x]) xs

/-- The elements of a list that none of the earlier ones is related to. -/
def firsts (r : α → α → Bool) (xs : List α) : List α := firstsAfter r [] xs

/-- A relation that holds between two elements just when they are in one class. -/
abbrev IsEquiv (r : α → α → Bool) : Prop := Equivalence fun x y => r x y = true

theorem IsEquiv.comm (hr : IsEquiv r) (x y : α) : r x y = r y x := by
  rw [Bool.eq_iff_iff]
  exact ⟨hr.symm, hr.symm⟩

theorem Value.isEquiv_same : IsEquiv Value.same := ⟨same_refl, same_symm, same_trans⟩

/-- Of elements none of which are related, two that are related are one. -/
theorem IsEquiv.eq_of_pairwise (hr : IsEquiv r) (h : xs.Pairwise fun x y => r y x = false)
    {x y : α} (hx : x ∈ xs) (hy : y ∈ xs) (hxy : r x y = true) : x = y := by
  have hsymm : Std.Symm fun x y => r y x = false :=
    ⟨fun x y hyx => by rw [hr.comm, hyx]⟩
  by_contra hne
  have hyx := h.forall hx hy hne
  rw [hr.comm, hxy] at hyx
  exact Bool.noConfusion hyx

/-! ### One more element -/

theorem firstsAfter_append (earlier xs ys : List α) : firstsAfter r earlier (xs ++ ys) =
    firstsAfter r earlier xs ++ firstsAfter r (earlier ++ xs) ys := by
  induction xs generalizing earlier with
  | nil => simp [firstsAfter]
  | cons x xs ih =>
      have hx : earlier ++ [x] ++ xs = earlier ++ x :: xs := by simp
      simp only [List.cons_append, firstsAfter, ih, hx]
      split
      · rfl
      · rfl

theorem firsts_nil : firsts r [] = [] := rfl

theorem firsts_concat (xs : List α) (x : α) :
    firsts r (xs ++ [x]) = if xs.any (r x) then firsts r xs else firsts r xs ++ [x] := by
  unfold firsts
  rw [firstsAfter_append, List.nil_append]
  simp only [firstsAfter]
  split
  · rw [List.append_nil]
  · rfl

/-- What two lists keep together: what the one keeps, then what the other keeps and nothing in the
one is related to. -/
theorem firsts_append (xs ys : List α) : firsts r (xs ++ ys) =
    firsts r xs ++ (firsts r ys).filter fun y => !xs.any (r y) := by
  induction ys using List.reverseRecOn with
  | nil => rw [List.append_nil, firsts_nil, List.filter_nil, List.append_nil]
  | append_singleton ys y ih =>
      rw [← List.append_assoc, firsts_concat, firsts_concat, List.any_append, ih]
      cases ys.any (r y) with
      | true => rw [Bool.or_true, if_pos rfl, if_pos rfl]
      | false =>
          rw [Bool.or_false, if_neg Bool.false_ne_true, List.filter_append, List.filter_cons,
            List.filter_nil]
          cases xs.any (r y) with
          | true => simp
          | false => simp

theorem mem_of_mem_firsts {x : α} (h : x ∈ firsts r xs) : x ∈ xs := by
  induction xs using List.reverseRecOn with
  | nil => exact h
  | append_singleton xs y ih =>
      rw [firsts_concat] at h
      split at h
      · exact List.mem_append_left _ (ih h)
      · rcases List.mem_append.mp h with h | h
        · exact List.mem_append_left _ (ih h)
        · exact List.mem_append_right _ h

/-- What is kept of the images is the image of what is kept by comparing images. -/
theorem firsts_map {β : Type} (f : β → α) (xs : List β) :
    firsts r (xs.map f) = (firsts (fun x y => r (f x) (f y)) xs).map f := by
  induction xs using List.reverseRecOn with
  | nil => rfl
  | append_singleton xs x ih =>
      have hany : (xs.map f).any (r (f x)) = xs.any fun y => r (f x) (f y) := List.any_map
      rw [List.map_append, List.map_singleton, firsts_concat, firsts_concat, hany, ih]
      split
      · rfl
      · rw [List.map_append, List.map_singleton]

/-! ### What is kept -/

/-- No element that is kept is related to one that is kept before it. -/
theorem pairwise_firsts (r : α → α → Bool) (xs : List α) :
    (firsts r xs).Pairwise fun x y => r y x = false := by
  induction xs using List.reverseRecOn with
  | nil => exact List.Pairwise.nil
  | append_singleton xs y ih =>
      rw [firsts_concat]
      split
      · exact ih
      · rename_i hy
        refine List.pairwise_append.mpr ⟨ih, List.pairwise_singleton _ _, ?_⟩
        intro x hx z hz
        rw [List.mem_singleton.mp hz]
        rw [Bool.not_eq_true, List.any_eq_false] at hy
        exact Bool.eq_false_iff.mpr (hy x (mem_of_mem_firsts hx))

/-- Every element is related to one that is kept. -/
theorem exists_mem_firsts (hr : IsEquiv r) {x : α} (hx : x ∈ xs) :
    ∃ y ∈ firsts r xs, r x y = true := by
  induction xs using List.reverseRecOn generalizing x with
  | nil => exact absurd hx List.not_mem_nil
  | append_singleton xs z ih =>
      rw [firsts_concat]
      rcases List.mem_append.mp hx with hx | hx
      · obtain ⟨y, hy, hxy⟩ := ih hx
        refine ⟨y, ?_, hxy⟩
        split
        · exact hy
        · exact List.mem_append_left _ hy
      · rw [List.mem_singleton.mp hx]
        split
        · rename_i hz
          obtain ⟨w, hw, hzw⟩ := List.any_eq_true.mp hz
          obtain ⟨y, hy, hwy⟩ := ih hw
          exact ⟨y, hy, hr.trans hzw hwy⟩
        · exact ⟨z, by simp, hr.refl z⟩

/-- What is kept is the first of the elements that are related to it. -/
theorem head?_filter_of_mem_firsts (hr : IsEquiv r) {x : α} (hx : x ∈ firsts r xs) :
    (xs.filter fun y => r y x).head? = some x := by
  induction xs using List.reverseRecOn with
  | nil => exact absurd hx List.not_mem_nil
  | append_singleton xs z ih =>
      rw [firsts_concat] at hx
      rw [List.filter_append, List.head?_append]
      cases hz : xs.any (r z) with
      | true =>
          rw [hz, if_pos rfl] at hx
          rw [ih hx, Option.some_or]
      | false =>
          rw [hz, if_neg Bool.false_ne_true, List.mem_append, List.mem_singleton] at hx
          rcases hx with hx | rfl
          · rw [ih hx, Option.some_or]
          · have hnone : xs.filter (fun y => r y x) = [] := by
              rw [List.filter_eq_nil_iff]
              intro y hy hyx
              exact List.any_eq_false.mp hz y hy (hr.symm hyx)
            rw [hnone, List.filter_cons, if_pos (hr.refl x)]
            rfl

/-- Dropping the others loses no answer of a test that related elements answer alike. -/
theorem any_firsts (hr : IsEquiv r) {p : α → Bool} (hp : ∀ x y, r x y = true → p x = p y)
    (xs : List α) : (firsts r xs).any p = xs.any p := by
  rw [Bool.eq_iff_iff, List.any_eq_true, List.any_eq_true]
  constructor
  · rintro ⟨x, hx, hpx⟩
    exact ⟨x, mem_of_mem_firsts hx, hpx⟩
  · rintro ⟨x, hx, hpx⟩
    obtain ⟨y, hy, hxy⟩ := exists_mem_firsts hr hx
    exact ⟨y, hy, by rw [← hp x y hxy, hpx]⟩

/-- An element is related to some element just when it is related to one that is kept. -/
theorem any_related_firsts (hr : IsEquiv r) (xs : List α) (x : α) :
    (firsts r xs).any (r x) = xs.any (r x) := by
  refine any_firsts hr (fun y z hyz => ?_) xs
  rw [Bool.eq_iff_iff]
  exact ⟨fun hxy => hr.trans hxy hyz, fun hxz => hr.trans hxz (hr.symm hyz)⟩

/-- A scan that keeps what is related to nothing kept keeps the first of related elements. -/
theorem foldl_eq_firsts (hr : IsEquiv r) (xs : List α) :
    xs.foldl (fun kept x => if kept.any (r x) then kept else kept ++ [x]) [] = firsts r xs := by
  induction xs using List.reverseRecOn with
  | nil => rfl
  | append_singleton xs x ih =>
      rw [List.foldl_append, ih, List.foldl_cons, List.foldl_nil, any_related_firsts hr,
        firsts_concat]

/-! ### Two relations -/

theorem firsts_congr (h : ∀ x ∈ xs, ∀ y ∈ xs, r x y = q x y) : firsts r xs = firsts q xs := by
  induction xs using List.reverseRecOn with
  | nil => rfl
  | append_singleton xs z ih =>
      have hxs : ∀ x ∈ xs, ∀ y ∈ xs, r x y = q x y := fun x hx y hy =>
        h x (List.mem_append_left _ hx) y (List.mem_append_left _ hy)
      have hz : xs.any (r z) = xs.any (q z) := by
        rw [Bool.eq_iff_iff, List.any_eq_true, List.any_eq_true]
        refine exists_congr fun y => and_congr_right fun hy => ?_
        rw [h z (by simp) y (List.mem_append_left _ hy)]
      rw [firsts_concat, firsts_concat, hz, ih hxs]

/-- What a finer relation keeps has no elements that the coarser one relates just when the two
agree on the list. -/
theorem pairwise_firsts_iff (hr : IsEquiv r) (hq : IsEquiv q)
    (hrq : ∀ x y, r x y = true → q x y = true) :
    ((firsts r xs).Pairwise fun x y => q y x = false) ↔
      ∀ x ∈ xs, ∀ y ∈ xs, q x y = true → r x y = true := by
  constructor
  · intro hpair x hx y hy hxy
    obtain ⟨v, hv, hxv⟩ := exists_mem_firsts hr hx
    obtain ⟨w, hw, hyw⟩ := exists_mem_firsts hr hy
    -- the two representatives are related by the coarser relation, so they are one
    have hvw : q v w = true :=
      hq.trans (hq.symm (hrq x v hxv)) (hq.trans hxy (hrq y w hyw))
    have heq : v = w := hq.eq_of_pairwise hpair hv hw hvw
    rw [← heq] at hyw
    exact hr.trans hxv (hr.symm hyw)
  · intro h
    have heq : firsts r xs = firsts q xs := firsts_congr fun x hx y hy => by
      rw [Bool.eq_iff_iff]
      exact ⟨hrq x y, h x hx y hy⟩
    rw [heq]
    exact pairwise_firsts q xs

/-- Of what a finer relation keeps, the coarser one keeps what it keeps of the whole list. -/
theorem firsts_firsts (hr : IsEquiv r) (hq : IsEquiv q)
    (hrq : ∀ x y, r x y = true → q x y = true) (xs : List α) :
    firsts q (firsts r xs) = firsts q xs := by
  induction xs using List.reverseRecOn with
  | nil => rfl
  | append_singleton xs z ih =>
      have hkept : (firsts r xs).any (q z) = xs.any (q z) := by
        refine any_firsts hr (fun x y hxy => ?_) xs
        rw [Bool.eq_iff_iff]
        exact ⟨fun hzx => hq.trans hzx (hrq x y hxy),
          fun hzy => hq.trans hzy (hq.symm (hrq x y hxy))⟩
      rw [firsts_concat]
      split
      · rename_i hz
        obtain ⟨y, hy, hzy⟩ := List.any_eq_true.mp hz
        rw [firsts_concat, if_pos (List.any_eq_true.mpr ⟨y, hy, hrq z y hzy⟩), ih]
      · rw [firsts_concat, firsts_concat, hkept, ih]

/-- Two relations, one finer than the other, keep the same elements just when they agree on the
list. -/
theorem firsts_eq_iff (hr : IsEquiv r) (hq : IsEquiv q)
    (hrq : ∀ x y, r x y = true → q x y = true) :
    firsts r xs = firsts q xs ↔ ∀ x ∈ xs, ∀ y ∈ xs, q x y = true → r x y = true := by
  constructor
  · intro heq
    refine (pairwise_firsts_iff hr hq hrq).mp ?_
    rw [heq]
    exact pairwise_firsts q xs
  · intro h
    refine firsts_congr fun x hx y hy => ?_
    rw [Bool.eq_iff_iff]
    exact ⟨hrq x y, h x hx y hy⟩

end RecordQuery
