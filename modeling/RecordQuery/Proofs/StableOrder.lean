import Mathlib.Data.List.Sort
import Mathlib.Order.OrderDual

/-! # Stable order by a key

A list is put in the order of a key stably: elements of one key, its ties, keep the order they have.
Two ascending lists with the same ties are one list (`Ascending.eq_of_sameTies`), so what ascends
and has the ties of a list is that list's merge sort by the key (`Ascending.eq_mergeSort`).

Of merging by a key it is said what stays in front of a merge and what behind it, and that a merge
may be made from the back (`merge_eq_reverse`). -/

namespace RecordQuery
namespace Sorting

variable {α κ : Type} [LinearOrder κ] {k : α → κ} {xs ys zs ws : List α}

/-- Whether the key of one element is at most that of another. -/
def byKey (k : α → κ) (x y : α) : Bool := decide (k x ≤ k y)

/-- Whether the key of one element is at most that of another, or at least in descending order. -/
def byKeyTowards (descending : Bool) (k : α → κ) : α → α → Bool :=
  if descending then byKey fun x => OrderDual.toDual (k x) else byKey k

/-- Whether no element is followed by one with a smaller key. -/
def Ascending (k : α → κ) (xs : List α) : Prop := xs.Pairwise fun x y => k x ≤ k y

/-- The elements with a key, in the order they have. -/
def ties (k : α → κ) (c : κ) (xs : List α) : List α := xs.filter fun x => decide (k x = c)

/-- Whether two lists have the same elements of each key in the same order. -/
def SameTies (k : α → κ) (xs ys : List α) : Prop := ∀ c, ties k c xs = ties k c ys

/-! ### Ties -/

theorem ties_append (c : κ) : ties k c (xs ++ ys) = ties k c xs ++ ties k c ys :=
  List.filter_append xs ys

theorem ties_reverse (c : κ) : ties k c xs.reverse = (ties k c xs).reverse :=
  List.filter_reverse

theorem ties_cons_self (x : α) : ties k (k x) (x :: xs) = x :: ties k (k x) xs :=
  List.filter_cons_of_pos (decide_eq_true rfl)

theorem ties_cons_of_ne {x : α} {c : κ} (h : k x ≠ c) : ties k c (x :: xs) = ties k c xs :=
  List.filter_cons_of_neg (by simpa using h)

theorem mem_ties {x : α} {c : κ} : x ∈ ties k c xs ↔ x ∈ xs ∧ k x = c := by
  simp [ties]

theorem ties_eq_nil {c : κ} (h : ∀ x ∈ xs, k x ≠ c) : ties k c xs = [] := by
  simpa [ties] using h

theorem SameTies.symm (h : SameTies k xs ys) : SameTies k ys xs := fun c => (h c).symm

theorem SameTies.trans (h : SameTies k xs ys) (h' : SameTies k ys zs) : SameTies k xs zs :=
  fun c => (h c).trans (h' c)

theorem SameTies.append (h : SameTies k xs ys) (h' : SameTies k zs ws) :
    SameTies k (xs ++ zs) (ys ++ ws) := by
  intro c
  rw [ties_append, ties_append, h c, h' c]

theorem SameTies.reverse (h : SameTies k xs ys) : SameTies k xs.reverse ys.reverse := by
  intro c
  rw [ties_reverse, ties_reverse, h c]

theorem SameTies.mem_iff (h : SameTies k xs ys) {x : α} : x ∈ xs ↔ x ∈ ys := by
  have hmem : x ∈ ties k (k x) xs ↔ x ∈ ties k (k x) ys := by rw [h]
  simpa [mem_ties] using hmem

/-- Where keys strictly descend, no two elements tie. -/
theorem sameTies_reverse (h : xs.Pairwise fun x y => k y < k x) : SameTies k xs.reverse xs := by
  intro c
  induction xs with
  | nil => rfl
  | cons x xs ih =>
      obtain ⟨hx, hxs⟩ := List.pairwise_cons.mp h
      rw [List.reverse_cons, ties_append, ih hxs]
      by_cases hkey : k x = c
      · subst hkey
        have hnone : ties k (k x) xs = [] := ties_eq_nil fun y hy => ne_of_lt (hx y hy)
        rw [ties_cons_self, ties_cons_self, hnone]
        rfl
      · rw [ties_cons_of_ne hkey, ties_cons_of_ne hkey]
        exact List.append_nil _

/-! ### Ascending lists -/

theorem Ascending.tail {x : α} (h : Ascending k (x :: xs)) : Ascending k xs := List.Pairwise.tail h

theorem Ascending.sublist (h : Ascending k ys) (hs : xs.Sublist ys) : Ascending k xs :=
  List.Pairwise.sublist hs h

theorem Ascending.head_le {x : α} (h : Ascending k (x :: xs)) {y : α} (hy : y ∈ x :: xs) :
    k x ≤ k y := by
  rcases List.mem_cons.mp hy with rfl | hmem
  · exact le_refl _
  · exact List.rel_of_pairwise_cons h hmem

theorem Ascending.le_last {x : α} (h : Ascending k (xs ++ [x])) {y : α} (hy : y ∈ xs ++ [x]) :
    k y ≤ k x := by
  rcases List.mem_append.mp hy with hmem | hmem
  · exact (List.pairwise_append.mp h).2.2 y hmem x (List.mem_singleton_self x)
  · rw [List.mem_singleton.mp hmem]

theorem Ascending.reverse (h : Ascending k xs) :
    Ascending (fun x => OrderDual.toDual (k x)) xs.reverse :=
  List.pairwise_reverse.mpr h

/-- The order and the ties determine a list. -/
theorem Ascending.eq_of_sameTies (hx : Ascending k xs) (hy : Ascending k ys)
    (h : SameTies k xs ys) : xs = ys := by
  induction xs generalizing ys with
  | nil =>
      cases ys with
      | nil => rfl
      | cons y ys => exact absurd (h.mem_iff.mpr List.mem_cons_self) List.not_mem_nil
  | cons x xs ih =>
      cases ys with
      | nil => exact absurd (h.mem_iff.mp List.mem_cons_self) List.not_mem_nil
      | cons y ys =>
          have hkey : k x = k y := le_antisymm (hx.head_le (h.mem_iff.mpr List.mem_cons_self))
            (hy.head_le (h.mem_iff.mp List.mem_cons_self))
          -- the ties of the least key begin with the first elements
          have hhead := h (k x)
          rw [ties_cons_self, hkey, ties_cons_self] at hhead
          obtain rfl := (List.cons.inj hhead).1
          refine congrArg (x :: ·) (ih hx.tail hy.tail fun c => ?_)
          have hc := h c
          by_cases hxc : k x = c
          · subst hxc
            rw [ties_cons_self, ties_cons_self] at hc
            exact (List.cons.inj hc).2
          · rw [ties_cons_of_ne hxc, ties_cons_of_ne hxc] at hc
            exact hc

/-! ### Merging -/

theorem byKey_trans (a b c : α) (hab : byKey k a b = true) (hbc : byKey k b c = true) :
    byKey k a c = true :=
  decide_eq_true (le_trans (of_decide_eq_true hab) (of_decide_eq_true hbc))

theorem byKey_total (a b : α) : (byKey k a b || byKey k b a) = true := by
  rw [Bool.or_eq_true]
  exact (le_total (k a) (k b)).imp decide_eq_true decide_eq_true

theorem ascending_iff : Ascending k xs ↔ xs.Pairwise fun x y => byKey k x y = true :=
  List.Pairwise.iff fun _ _ => decide_eq_true_iff.symm

theorem merge_cons_of_le {x y : α} (h : k x ≤ k y) :
    (x :: xs).merge (y :: ys) (byKey k) = x :: xs.merge (y :: ys) (byKey k) :=
  List.cons_merge_cons_pos _ _ _ (decide_eq_true h)

theorem merge_cons_of_lt {x y : α} (h : k y < k x) :
    (x :: xs).merge (y :: ys) (byKey k) = y :: (x :: xs).merge ys (byKey k) :=
  List.cons_merge_cons_neg _ _ _ (by simpa [byKey] using h)

theorem Ascending.merge (hx : Ascending k xs) (hy : Ascending k ys) :
    Ascending k (xs.merge ys (byKey k)) :=
  ascending_iff.mpr (List.pairwise_merge byKey_trans byKey_total xs ys (ascending_iff.mp hx)
    (ascending_iff.mp hy))

theorem Ascending.sameTies_merge (hx : Ascending k xs) (ys : List α) :
    SameTies k (xs.merge ys (byKey k)) (xs ++ ys) := by
  intro c
  induction xs generalizing ys with
  | nil => rw [List.nil_merge, List.nil_append]
  | cons x xs ihx =>
      induction ys with
      | nil => rw [List.merge_right, List.append_nil]
      | cons y ys ihy =>
          rcases le_or_gt (k x) (k y) with hle | hlt
          · rw [merge_cons_of_le hle, List.cons_append]
            by_cases hxc : k x = c
            · subst hxc
              rw [ties_cons_self, ties_cons_self, ihx hx.tail]
            · rw [ties_cons_of_ne hxc, ties_cons_of_ne hxc, ihx hx.tail]
          · rw [merge_cons_of_lt hlt, ties_append]
            by_cases hyc : k y = c
            · subst hyc
              have hnone : ties k (k y) (x :: xs) = [] :=
                ties_eq_nil fun a ha => ne_of_gt (lt_of_lt_of_le hlt (hx.head_le ha))
              rw [ties_cons_self, ties_cons_self, ihy, ties_append, hnone]
              rfl
            · rw [ties_cons_of_ne hyc, ties_cons_of_ne hyc, ihy, ties_append]

/-- What is at most everything in the other list stays in front. -/
theorem merge_append_left (h : ∀ x ∈ xs, ∀ z ∈ zs, k x ≤ k z) :
    (xs ++ ys).merge zs (byKey k) = xs ++ ys.merge zs (byKey k) := by
  induction xs with
  | nil => rfl
  | cons x xs ih =>
      cases zs with
      | nil => rw [List.merge_right, List.merge_right]
      | cons z zs =>
          rw [List.cons_append, merge_cons_of_le (h x List.mem_cons_self z List.mem_cons_self),
            ih fun a ha => h a (List.mem_cons_of_mem x ha)]
          rfl

/-- An element that is less than everything in the other list comes first. -/
theorem merge_cons_right {y : α} (h : ∀ x ∈ xs, k y < k x) :
    xs.merge (y :: zs) (byKey k) = y :: xs.merge zs (byKey k) := by
  cases xs with
  | nil => rw [List.nil_merge, List.nil_merge]
  | cons x xs => exact merge_cons_of_lt (h x List.mem_cons_self)

/-- What is less than everything in the other list stays in front. -/
theorem merge_append_right (h : ∀ y ∈ ys, ∀ x ∈ xs, k y < k x) :
    xs.merge (ys ++ zs) (byKey k) = ys ++ xs.merge zs (byKey k) := by
  induction ys with
  | nil => rfl
  | cons y ys ih =>
      rw [List.cons_append, merge_cons_right (h y List.mem_cons_self),
        ih fun a ha => h a (List.mem_cons_of_mem y ha)]
      rfl

/-- What is at least everything in the other list stays behind. -/
theorem merge_append_back (h : ∀ x ∈ xs, ∀ z ∈ zs, k x ≤ k z) :
    xs.merge (ys ++ zs) (byKey k) = xs.merge ys (byKey k) ++ zs := by
  induction xs generalizing ys with
  | nil => rw [List.nil_merge, List.nil_merge]
  | cons x xs ihx =>
      induction ys with
      | nil =>
          rw [List.nil_append, List.merge_right]
          exact List.merge_of_le fun a b ha hb => decide_eq_true (h a ha b hb)
      | cons y ys ihy =>
          rw [List.cons_append]
          rcases le_or_gt (k x) (k y) with hle | hlt
          · rw [merge_cons_of_le hle, merge_cons_of_le hle, ← List.cons_append,
              ihx fun a ha => h a (List.mem_cons_of_mem x ha)]
            rfl
          · rw [merge_cons_of_lt hlt, merge_cons_of_lt hlt, ihy]
            rfl

/-- A merge from the back, in which ties are taken from the second list, is the same merge. -/
theorem merge_eq_reverse (hx : Ascending k xs) (hy : Ascending k ys) :
    xs.merge ys (byKey k) =
      (ys.reverse.merge xs.reverse (byKey fun x => OrderDual.toDual (k x))).reverse := by
  refine (hx.merge hy).eq_of_sameTies (hy.reverse.merge hx.reverse).reverse ?_
  refine (hx.sameTies_merge ys).trans ?_
  have hback : SameTies k _ _ := (hy.reverse.sameTies_merge xs.reverse).reverse
  rw [← List.reverse_append, List.reverse_reverse] at hback
  exact hback.symm

/-! ### Sorting -/

theorem ascending_mergeSort (xs : List α) : Ascending k (xs.mergeSort (byKey k)) :=
  ascending_iff.mpr (List.pairwise_mergeSort byKey_trans byKey_total xs)

theorem sameTies_mergeSort (xs : List α) : SameTies k (xs.mergeSort (byKey k)) xs := by
  intro c
  have hties : Ascending k (ties k c xs) := List.pairwise_of_forall_mem_list fun x hx y hy =>
    le_of_eq ((mem_ties.mp hx).2.trans (mem_ties.mp hy).2.symm)
  have hsub := (List.sublist_mergeSort byKey_trans byKey_total (ascending_iff.mp hties)
    List.filter_sublist).filter fun x => decide (k x = c)
  simp only [ties, List.filter_filter, Bool.and_self] at hsub
  exact (hsub.eq_of_length ((List.mergeSort_perm xs _).filter _).length_eq.symm).symm

/-- What ascends and has the ties of a list is its merge sort. -/
theorem Ascending.eq_mergeSort (hy : Ascending k ys) (h : SameTies k ys xs) :
    ys = xs.mergeSort (byKey k) :=
  hy.eq_of_sameTies (ascending_mergeSort xs) (h.trans (sameTies_mergeSort xs).symm)

theorem merge_mergeSort (xs ys : List α) :
    (xs.mergeSort (byKey k)).merge (ys.mergeSort (byKey k)) (byKey k) =
      (xs ++ ys).mergeSort (byKey k) := by
  have hx := ascending_mergeSort (k := k) xs
  refine (hx.merge (ascending_mergeSort ys)).eq_mergeSort ?_
  exact (hx.sameTies_merge _).trans ((sameTies_mergeSort xs).append (sameTies_mergeSort ys))

end Sorting
end RecordQuery
