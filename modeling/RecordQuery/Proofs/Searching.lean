import Mathlib.Data.List.Pairwise
import RecordQuery.Sorting

/-! # Searches for a boundary

A search tries elements of a list, each of which may pass, fail or give no answer.  `Ensures` says
how such a computation may end.  Whatever the tries answer, a search ends, with a failure only where
a try has that failure (`ensures_gallop`, `ensures_bisect`).

On a list with a boundary, on whose front the test fails and on whose rest it passes, both searches
find it, whichever elements they try: it is the index of the first element that passes
(`gallop_eq_findIdx`, `bisect_eq_findIdx`), and cuts the list in two
(`HasBoundary.exists_split`). -/

namespace RecordQuery

/-! ### Results and failures -/

section Ensures

variable {ε α β : Type} {failure : ε → Prop} {result result' : α → Prop} {x : Except ε α}

/-- Whether a computation ends with a result of one sort or with a failure of another. -/
def Ensures (failure : ε → Prop) (result : α → Prop) : Except ε α → Prop
  | .ok a => result a
  | .error e => failure e

theorem Ensures.bind (hx : Ensures failure result x) {next : α → Except ε β} {last : β → Prop}
    (h : ∀ a, result a → Ensures failure last (next a)) : Ensures failure last (x >>= next) := by
  cases x with
  | ok a => exact h a hx
  | error e => exact hx

theorem Ensures.imp (hx : Ensures failure result x) (h : ∀ a, result a → result' a) :
    Ensures failure result' x := by
  cases x with
  | ok a => exact h a hx
  | error e => exact hx

/-- Whether a computation ends with a result of one sort, and never with a failure. -/
abbrev Returns (result : α → Prop) (x : Except ε α) : Prop := Ensures (fun _ => False) result x

theorem Returns.exists_ok (hx : Returns result x) : ∃ a, x = .ok a ∧ result a := by
  cases x with
  | ok a => exact ⟨a, rfl, hx⟩
  | error e => exact hx.elim

end Ensures

namespace Sorting

variable {ε α : Type} {test : α → Except ε Bool} {xs : List α}

/-! ### Searches that end -/

section Failures

variable {failure : ε → Prop} (htest : ∀ x, Ensures failure (fun _ => True) (test x))
include htest

theorem ensures_bisect (near : Bool) (xs : List α) (low high : Nat) :
    Ensures failure (fun _ => True) (bisect test near xs low high) := by
  induction low, high using bisect.induct near xs with
  | case1 low high hlt middle hnone =>
      rw [bisect, if_pos hlt]
      simp only [middle] at hnone
      simp only [hnone]
      trivial
  | case2 low high hlt middle x hx ihlow ihhigh =>
      rw [bisect, if_pos hlt]
      simp only [middle] at hx
      simp only [hx]
      refine (htest x).bind fun passed _ => ?_
      cases passed with
      | true => exact ihlow
      | false => exact ihhigh
  | case3 low high hge =>
      rw [bisect, if_neg hge]
      trivial

theorem ensures_reach (xs : List α) (failed next : Nat) :
    Ensures failure (fun _ => True) (reach test xs failed next) := by
  induction failed, next using reach.induct xs with
  | case1 failed next hlt ih =>
      rw [reach, dif_pos hlt]
      refine (htest _).bind fun passed _ => ?_
      cases passed with
      | true => trivial
      | false => exact ih
  | case2 failed next hge =>
      rw [reach, dif_neg hge]
      trivial

theorem ensures_gallop (near : Bool) (xs : List α) :
    Ensures failure (fun _ => True) (gallop test near xs) := by
  cases xs with
  | nil => trivial
  | cons x xs =>
      refine (htest x).bind fun passed _ => ?_
      cases passed with
      | true => trivial
      | false =>
          refine (ensures_reach htest (x :: xs) 0 1).bind fun r _ => ?_
          exact ensures_bisect htest near (x :: xs) (r.1 + 1) r.2

end Failures

/-! ### Boundaries -/

/-- Whether every element behind one that passes passes too. -/
def HasBoundary (p : α → Bool) (xs : List α) : Prop :=
  xs.Pairwise fun x y => p x = true → p y = true

variable {p : α → Bool}

theorem HasBoundary.lt_findIdx_iff (h : HasBoundary p xs) {i : Nat} (hi : i < xs.length) :
    i < xs.findIdx p ↔ p xs[i] = false := by
  constructor
  · exact List.not_of_lt_findIdx
  · intro hfalse
    by_contra hge
    have hlt : xs.findIdx p < xs.length := by omega
    have hpass : p xs[xs.findIdx p] = true := List.findIdx_getElem
    rcases Nat.lt_or_ge (xs.findIdx p) i with hbefore | hle
    · have := List.pairwise_iff_getElem.mp h _ _ hlt hi hbefore hpass
      rw [hfalse] at this
      exact Bool.false_ne_true this
    · have heq : xs.findIdx p = i := by omega
      simp only [heq, hfalse] at hpass
      exact Bool.false_ne_true hpass

/-- A boundary cuts a list into those that fail and those that pass. -/
theorem HasBoundary.exists_split (h : HasBoundary p xs) :
    ∃ front rest, xs = front ++ rest ∧ xs.findIdx p = front.length ∧
      (∀ x ∈ front, p x = false) ∧ ∀ x ∈ rest, p x = true := by
  have hle : xs.findIdx p ≤ xs.length := List.findIdx_le_length
  refine ⟨xs.take (xs.findIdx p), xs.drop (xs.findIdx p), (List.take_append_drop _ xs).symm,
    (List.length_take_of_le hle).symm, fun x hx => ?_, fun x hx => ?_⟩
  · obtain ⟨i, hi, rfl⟩ := List.mem_iff_getElem.mp hx
    rw [List.length_take] at hi
    rw [List.getElem_take]
    exact List.not_of_lt_findIdx (by omega)
  · obtain ⟨i, hi, rfl⟩ := List.mem_iff_getElem.mp hx
    rw [List.length_drop] at hi
    rw [List.getElem_drop, ← Bool.not_eq_false]
    apply mt (h.lt_findIdx_iff (by omega)).mpr
    omega

/-- A boundary found from the back cuts the list the other way round. -/
theorem HasBoundary.exists_split_reverse (h : HasBoundary p xs.reverse) :
    ∃ front rest, xs = front ++ rest ∧ xs.reverse.findIdx p = rest.length ∧
      (∀ x ∈ front, p x = true) ∧ ∀ x ∈ rest, p x = false := by
  obtain ⟨rest, front, hsplit, hindex, hrest, hfront⟩ := h.exists_split
  refine ⟨front.reverse, rest.reverse, ?_, by rw [hindex, List.length_reverse], ?_, ?_⟩
  · rw [← List.reverse_append, ← hsplit, List.reverse_reverse]
  · simpa using hfront
  · simpa using hrest

section Found

variable (htest : ∀ x ∈ xs, test x = .ok (p x)) (h : HasBoundary p xs)
include htest h

/-- Halving keeps the boundary between its bounds. -/
theorem bisect_eq_findIdx (near : Bool) {low high : Nat} (hlow : low ≤ xs.findIdx p)
    (hhigh : xs.findIdx p ≤ high) (hlen : high ≤ xs.length) :
    bisect test near xs low high = .ok (xs.findIdx p) := by
  induction low, high using bisect.induct near xs with
  | case1 low high hlt middle hnone =>
      have hmiddle : xs.length ≤ middle := List.getElem?_eq_none_iff.mp hnone
      omega
  | case2 low high hlt middle x hx ihlow ihhigh =>
      have hmiddle : middle < high := by omega
      obtain ⟨hi, rfl⟩ := List.getElem?_eq_some_iff.mp hx
      have hiff := h.lt_findIdx_iff hi
      have htry := htest _ (List.getElem_mem hi)
      rw [bisect, if_pos hlt]
      simp only [middle] at hx htry hiff ihlow ihhigh hmiddle
      simp only [hx, htry]
      show (if p _ = true then _ else _) = _
      split
      · rename_i hpass
        have hle := Nat.not_lt.mp (mt hiff.mp (by simp [hpass]))
        exact ihlow hlow hle (by omega)
      · rename_i hfail
        exact ihhigh (hiff.mpr (Bool.eq_false_iff.mpr hfail)) hhigh hlen
  | case3 low high hge =>
      rw [bisect, if_neg hge]
      have heq : low = xs.findIdx p := by omega
      rw [heq]

/-- Tries at growing distances end with the boundary between the last failure and the first pass. -/
theorem reach_around_findIdx {failed next : Nat} (hfailed : failed + 1 ≤ xs.findIdx p) :
    Returns (fun r => r.1 + 1 ≤ xs.findIdx p ∧ xs.findIdx p ≤ r.2 ∧ r.2 ≤ xs.length)
      (reach test xs failed next) := by
  induction failed, next using reach.induct xs with
  | case1 failed next hlt ih =>
      have hiff := h.lt_findIdx_iff hlt
      rw [reach, dif_pos hlt, htest _ (List.getElem_mem hlt)]
      show Returns _ (if p _ = true then _ else _)
      split
      · rename_i hpass
        exact ⟨hfailed, Nat.not_lt.mp (mt hiff.mp (by simp [hpass])), Nat.le_of_lt hlt⟩
      · rename_i hfail
        exact ih (hiff.mpr (Bool.eq_false_iff.mpr hfail))
  | case2 failed next hge =>
      rw [reach, dif_neg hge]
      exact ⟨hfailed, List.findIdx_le_length, Nat.le_refl _⟩

theorem gallop_eq_findIdx (near : Bool) : gallop test near xs = .ok (xs.findIdx p) := by
  cases xs with
  | nil => rfl
  | cons x xs =>
      have hiff := h.lt_findIdx_iff (Nat.zero_lt_succ xs.length)
      rw [gallop, htest x List.mem_cons_self]
      show (if p x = true then _ else _) = _
      split
      · rename_i hpass
        rw [List.findIdx_cons, hpass]
        rfl
      · rename_i hfail
        have hfirst : 0 + 1 ≤ (x :: xs).findIdx p := hiff.mpr (Bool.eq_false_iff.mpr hfail)
        have hreach : Returns _ (reach test (x :: xs) 0 1) := reach_around_findIdx htest h hfirst
        obtain ⟨r, hr, hlow, hhigh, hlen⟩ := hreach.exists_ok
        rw [hr]
        exact bisect_eq_findIdx htest h near hlow hhigh hlen

theorem returns_gallop (near : Bool) :
    Returns (fun i => i = xs.findIdx p) (gallop test near xs) := by
  rw [gallop_eq_findIdx htest h near]
  rfl

end Found

end Sorting
end RecordQuery
