import Mathlib.Data.List.Chain
import RecordQuery.Proofs.Merging
import RecordQuery.Sorting

/-! # Sorting by a key

Where comparisons compare keys, the sort is the stable sort by the key (`sort_eq_mergeSort`), and so
it is in descending order (`sortTowards_eq_mergeSort`).  A run
is the stable sort of the stretch it is cut from (`CutsRun`), and the runs on the stack are those of
consecutive stretches (`Stacked`), which every merge of neighbours preserves. -/

namespace RecordQuery
namespace Sorting

variable {ε α κ : Type} [LinearOrder κ] {k : α → κ} {before : α → α → Except ε Bool}
  {xs ys done : List α}

theorem Compares.mono (h : Compares k before ys ys) (hxs : xs ⊆ ys) : Compares k before xs xs :=
  fun x hx y hy => h x (hxs hx) y (hxs hy)

/-! ### Runs -/

/-- A run goes on as long as each element is, or is not, before its predecessor. -/
theorem returns_continueRun (descending : Bool) (last : α)
    (h : Compares k before (last :: xs) (last :: xs)) :
    Returns (fun r => xs = r.1 ++ r.2 ∧
      (last :: r.1).IsChain fun x y => decide (k y < k x) = descending)
      (continueRun before descending last xs) := by
  induction xs generalizing last with
  | nil => exact ⟨rfl, List.isChain_singleton last⟩
  | cons x xs ih =>
      rw [continueRun, h x (List.mem_cons_of_mem last List.mem_cons_self) last List.mem_cons_self]
      show Returns _ (if _ then _ else _)
      split
      · rename_i hgoes
        refine (ih x (h.mono (List.subset_cons_self last _))).bind fun r hr => ?_
        exact ⟨congrArg (x :: ·) hr.1, List.isChain_cons_cons.mpr ⟨eq_of_beq hgoes, hr.2⟩⟩
      · exact ⟨rfl, List.isChain_singleton last⟩

theorem ascending_of_isChain (h : xs.IsChain fun x y => decide (k y < k x) = false) :
    Ascending k xs := by
  have hchain : (xs.map k).IsChain (· ≤ ·) := by
    rw [List.isChain_map]
    exact h.imp fun _ _ hlt => not_lt.mp (of_decide_eq_false hlt)
  exact List.pairwise_map.mp (List.isChain_iff_pairwise.mp hchain)

theorem descending_of_isChain (h : xs.IsChain fun x y => decide (k y < k x) = true) :
    xs.Pairwise fun x y => k y < k x := by
  have hchain : (xs.map k).IsChain (· > ·) := by
    rw [List.isChain_map]
    exact h.imp fun _ _ hlt => of_decide_eq_true hlt
  exact List.pairwise_map.mp (List.isChain_iff_pairwise.mp hchain)

/-- Whether a list is cut into the stable sort of a front of it and the rest. -/
def CutsRun (k : α → κ) (xs : List α) (r : List α × List α) : Prop :=
  ∃ front, xs = front ++ r.2 ∧ r.1 = front.mergeSort (byKey k) ∧ (xs ≠ [] → front ≠ [])

theorem returns_firstRun (h : Compares k before xs xs) :
    Returns (CutsRun k xs) (firstRun before xs) := by
  match xs with
  | [] => exact ⟨[], rfl, List.mergeSort_nil.symm, id⟩
  | [x] => exact ⟨[x], rfl, (List.mergeSort_singleton x).symm, id⟩
  | x :: y :: rest =>
      have hy : y ∈ x :: y :: rest := List.mem_cons_of_mem x List.mem_cons_self
      rw [firstRun, h y hy x List.mem_cons_self]
      refine (returns_continueRun (decide (k y < k x)) y
        (h.mono (List.subset_cons_self x _))).bind fun r hr => ?_
      obtain ⟨rfl, hchain⟩ := hr
      have hrun : (x :: y :: r.1).IsChain fun a b => decide (k b < k a) = decide (k y < k x) :=
        List.isChain_cons_cons.mpr ⟨rfl, hchain⟩
      refine ⟨x :: y :: r.1, rfl, ?_, fun _ => List.cons_ne_nil x _⟩
      cases hdescending : decide (k y < k x) with
      | true =>
          rw [hdescending] at hrun
          -- without ties a run can be turned round
          have hstrict := descending_of_isChain hrun
          have hturned : Ascending k (x :: y :: r.1).reverse :=
            List.pairwise_reverse.mpr (hstrict.imp le_of_lt)
          exact hturned.eq_mergeSort (sameTies_reverse hstrict)
      | false =>
          rw [hdescending] at hrun
          exact (ascending_of_isChain hrun).eq_mergeSort fun _ => rfl

/-- An element is put behind those that it is not before. -/
theorem insert_eq_mergeSort {front least most : List α} {x : α}
    (h : front.mergeSort (byKey k) = least ++ most) (hleast : ∀ y ∈ least, k y ≤ k x)
    (hmost : ∀ y ∈ most, k x < k y) :
    least ++ x :: most = (front ++ [x]).mergeSort (byKey k) := by
  rw [← merge_mergeSort, h, List.mergeSort_singleton, merge_append_left (by simpa using hleast),
    merge_cons_right hmost, List.merge_right]

theorem returns_insertAll (front : List α) (h : Compares k before (front ++ xs) (front ++ xs)) :
    Returns (fun run => run = (front ++ xs).mergeSort (byKey k))
      (insertAll before (front.mergeSort (byKey k)) xs) := by
  induction xs generalizing front with
  | nil => exact congrArg (List.mergeSort · (byKey k)) (List.append_nil front).symm
  | cons x xs ih =>
      rw [List.append_cons] at h ⊢
      have hx : x ∈ front ++ [x] ++ xs := by simp
      have hcompares : ∀ y ∈ front.mergeSort (byKey k), before x y = .ok (decide (k x < k y)) := by
        intro y hy
        have hfront := List.mem_append_left [x] (List.mem_mergeSort.mp hy)
        exact h x hx y (List.mem_append_left xs hfront)
      have hafter := (ascending_mergeSort (k := k) front).hasBoundary (k x)
      rw [insertAll, bisect_eq_findIdx hcompares hafter false (Nat.zero_le _)
        List.findIdx_le_length (Nat.le_refl _)]
      obtain ⟨least, most, hsplit, hindex, hleast, hmost⟩ := hafter.exists_split
      have hinserted := insert_eq_mergeSort hsplit
        (fun y hy => not_lt.mp (of_decide_eq_false (hleast y hy)))
        (fun y hy => of_decide_eq_true (hmost y hy))
      show Returns _ (insertAll before (List.take _ _ ++ x :: List.drop _ _) xs)
      rw [hindex, hsplit, List.take_left, List.drop_left, hinserted]
      exact ih (front ++ [x]) h

theorem returns_extendedRun (least : Nat) (h : Compares k before xs xs) :
    Returns (CutsRun k xs) (extendedRun before least xs) := by
  refine (returns_firstRun h).bind fun r hr => ?_
  obtain ⟨run, rest⟩ := r
  obtain ⟨front, rfl, rfl, hne⟩ := hr
  have hsplit : front ++ rest = front ++ rest.take (least - (front.mergeSort (byKey k)).length) ++
      rest.drop (least - (front.mergeSort (byKey k)).length) := by
    rw [List.append_assoc, List.take_append_drop]
  have hstretch := List.sublist_append_left
    (front ++ rest.take (least - (front.mergeSort (byKey k)).length))
    (rest.drop (least - (front.mergeSort (byKey k)).length))
  rw [← hsplit] at hstretch
  refine (returns_insertAll front (h.mono hstretch.subset)).bind fun run hrun => ?_
  exact ⟨_, hsplit, hrun, fun hxs hnil => hne hxs (List.append_eq_nil_iff.mp hnil).1⟩

/-! ### The stack of runs -/

/-- Whether the runs of a stack are the stable sorts of consecutive stretches of a list. -/
inductive Stacked (k : α → κ) : List (Pending α) → List α → Prop where
  | nil : Stacked k [] []
  | cons {stack : List (Pending α)} {done : List α} (start power : Nat) (stretch : List α)
      (below : Stacked k stack done) :
      Stacked k (⟨start, stretch.mergeSort (byKey k), power⟩ :: stack) (done ++ stretch)

variable {rest : List (Pending α)} {top below : Pending α}

theorem Stacked.exists_stretch (h : Stacked k (top :: rest) xs) :
    ∃ done stretch, xs = done ++ stretch ∧ top.items = stretch.mergeSort (byKey k) ∧
      Stacked k rest done := by
  cases h with
  | cons start power stretch hrest => exact ⟨_, stretch, rfl, rfl, hrest⟩

/-- Merging the two runs at the top joins their stretches. -/
theorem Stacked.returns_merge (h : Stacked k (top :: below :: rest) xs)
    (hcompares : Compares k before xs xs) (start power patience : Nat) :
    Returns (fun r => Stacked k (⟨start, r.1, power⟩ :: rest) xs)
      (merge before patience below.items top.items) := by
  obtain ⟨_, last, rfl, htop, hbelow⟩ := h.exists_stretch
  obtain ⟨done, stretch, rfl, hitems, hrest⟩ := hbelow.exists_stretch
  rw [hitems, htop]
  have hacross : Compares k before (last.mergeSort (byKey k)) (stretch.mergeSort (byKey k)) := by
    intro y hy x hx
    apply hcompares
    · exact List.mem_append_right _ (List.mem_mergeSort.mp hy)
    · exact List.mem_append_left _ (List.mem_append_right done (List.mem_mergeSort.mp hx))
  refine (Sorting.returns_merge (ascending_mergeSort stretch) (ascending_mergeSort last) hacross
    patience).imp fun r hr => ?_
  rw [hr, merge_mergeSort, List.append_assoc]
  exact .cons start power (stretch ++ last) hrest

theorem returns_settle (power patience : Nat) {stack : List (Pending α)} (h : Stacked k stack xs)
    (hcompares : Compares k before xs xs) :
    Returns (fun r => Stacked k r.1 xs) (settle before power patience stack) := by
  unfold settle
  match stack, h with
  | [], h => exact h
  | [_], h => exact h
  | top :: below :: rest, h =>
      show Returns _ (if _ then _ else _)
      split
      · refine (h.returns_merge hcompares below.start below.power patience).bind fun r hr => ?_
        exact returns_settle power r.2 hr hcompares
      · exact h
termination_by stack.length
decreasing_by simp

/-- The one run that is left is the whole. -/
theorem returns_collapse (patience : Nat) {xs : List α} {stack : List (Pending α)}
    (h : Stacked k stack xs) (hcompares : Compares k before xs xs) :
    Returns (fun r => r = xs.mergeSort (byKey k)) (collapse before patience stack) := by
  unfold collapse
  match stack, h with
  | [], h =>
      cases h
      exact List.mergeSort_nil.symm
  | [run], h =>
      obtain ⟨_, stretch, rfl, hitems, hnil⟩ := h.exists_stretch
      cases hnil
      exact hitems
  | [top, below], h =>
      refine (h.returns_merge hcompares 0 0 patience).bind fun r hr => ?_
      obtain ⟨_, stretch, rfl, hitems, hnil⟩ := hr.exists_stretch
      cases hnil
      exact hitems
  | top :: middle :: bottom :: rest, h =>
      show Returns _ (if _ then _ else _)
      split
      · obtain ⟨start, _, power⟩ := top
        obtain ⟨done, stretch, rfl, rfl, hbelow⟩ := h.exists_stretch
        have hdone := hcompares.mono (List.subset_append_left done stretch)
        refine (hbelow.returns_merge hdone bottom.start bottom.power patience).bind fun r hr => ?_
        exact returns_collapse r.2 (.cons start power stretch hr) hcompares
      · refine (h.returns_merge hcompares middle.start middle.power patience).bind fun r hr => ?_
        exact returns_collapse r.2 hr hcompares
termination_by stack.length
decreasing_by all_goals simp

theorem returns_stackRuns (length least fuel start patience : Nat) {stack : List (Pending α)}
    (h : Stacked k stack done) (hcompares : Compares k before (done ++ xs) (done ++ xs))
    (hfuel : xs.length ≤ fuel) :
    Returns (fun r => Stacked k r.1 (done ++ xs))
      (stackRuns before length least fuel start patience stack xs) := by
  induction fuel generalizing start patience stack done xs with
  | zero =>
      obtain rfl := List.length_eq_zero_iff.mp (Nat.le_zero.mp hfuel)
      rw [List.append_nil]
      exact h
  | succ fuel ih =>
      cases xs with
      | nil =>
          rw [List.append_nil]
          exact h
      | cons x xs =>
          have hxs := hcompares.mono (List.subset_append_right done (x :: xs))
          refine (returns_extendedRun least hxs).bind fun r hr => ?_
          obtain ⟨run, rest⟩ := r
          obtain ⟨front, hsplit, rfl, hne⟩ := hr
          have hdone := hcompares.mono (List.subset_append_left done (x :: xs))
          rw [hsplit, ← List.append_assoc] at hcompares ⊢
          refine (returns_settle _ patience h hdone).bind fun r hr => ?_
          refine ih _ _ (.cons start _ front hr) hcompares (show rest.length ≤ fuel from ?_)
          -- no run is empty, so the fuel lasts
          have hpos := List.length_pos_of_ne_nil (hne (List.cons_ne_nil x xs))
          have hlength := congrArg List.length hsplit
          simp only [List.length_cons, List.length_append] at hlength hfuel
          omega

/-- The stable sort by the key, whatever runs the list is cut into. -/
theorem sort_eq_mergeSort (h : Compares k before xs xs) :
    sort before xs = .ok (xs.mergeSort (byKey k)) := by
  have hsort : Returns (fun r => r = xs.mergeSort (byKey k)) (sort before xs) := by
    refine (returns_stackRuns xs.length _ _ 0 _ Stacked.nil h (Nat.le_refl _)).bind fun r hr => ?_
    exact returns_collapse r.2 hr h
  obtain ⟨r, hr, rfl⟩ := hsort.exists_ok
  exact hr

/-- In either direction, sorting is the stable sort by the key. -/
theorem sortTowards_eq_mergeSort (descending : Bool) (h : Compares k before xs xs) :
    (if descending then sortDescending before xs else sort before xs) =
      .ok (xs.mergeSort (byKeyTowards descending k)) := by
  cases descending with
  | false => exact sort_eq_mergeSort h
  | true =>
      have hreverse : Compares k before xs.reverse xs.reverse :=
        h.mono fun x hx => List.mem_reverse.mp hx
      have hties := (sameTies_mergeSort (k := k) xs.reverse).reverse
      rw [List.reverse_reverse] at hties
      rw [if_pos rfl, sortDescending, sort_eq_mergeSort hreverse]
      exact congrArg Except.ok ((ascending_mergeSort xs.reverse).reverse.eq_mergeSort hties)

end Sorting
end RecordQuery
