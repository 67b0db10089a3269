import RecordQuery.Proofs.Merging
import RecordQuery.Sorting

/-! # Outcomes of sorting

Whatever comparisons answer, also where their answers contradict each other, sorting ends with a
permutation of what it was given, or with the failure of a comparison (`ensures_sort`). -/

namespace RecordQuery
namespace Sorting

variable {ε α : Type} {failure : ε → Prop}

/-! ### Merges -/

section Interleaving

/-- Whether a leap loses nothing and adds nothing. -/
def Leap.Keeps (held other : List α) (l : Leap α) : Prop :=
  (l.taken ++ (l.held ++ l.other)).Perm (held ++ other)

theorem perm_leftover (held other : List α) : (leftover held other).Perm (held ++ other) := by
  unfold leftover
  split
  · exact List.perm_append_comm
  · exact List.Perm.refl _

variable {wins : α → α → Except ε Bool} {mirrored : Bool}
  (hwins : ∀ x y, Ensures failure (fun _ => True) (wins x y))
include hwins

theorem ensures_leapHeld (held other : List α) :
    Ensures failure (Leap.Keeps held other) (leapHeld wins mirrored held other) := by
  cases other with
  | nil => exact List.Perm.refl _
  | cons q qs =>
      refine (ensures_gallop (hwins q) mirrored held).bind fun passed _ => ?_
      have hsplit := List.take_append_drop passed held
      show Ensures _ _ (if _ then _ else _)
      split
      · show (held.take passed ++ (held.drop passed ++ q :: qs)).Perm (held ++ q :: qs)
        rw [← List.append_assoc, hsplit]
      · show (held.take passed ++ [q] ++ (held.drop passed ++ qs)).Perm (held ++ q :: qs)
        have hmiddle : (q :: (held.drop passed ++ qs)).Perm (held.drop passed ++ q :: qs) :=
          List.perm_middle.symm
        have hkeeps := hmiddle.append_left (held.take passed)
        rw [← List.append_assoc (held.take passed) (held.drop passed), hsplit] at hkeeps
        rw [List.append_assoc]
        exact hkeeps

theorem ensures_leapOther (held other : List α) :
    Ensures failure (Leap.Keeps held other) (leapOther wins mirrored held other) := by
  cases held with
  | nil => exact List.Perm.refl _
  | cons p ps =>
      have htest : ∀ q, Ensures failure (fun _ => True) (do return !(← wins q p)) := fun q =>
        (hwins q p).bind fun _ _ => trivial
      refine (ensures_gallop htest mirrored other).bind fun passed _ => ?_
      have hsplit := List.take_append_drop passed other
      show Ensures _ _ (if _ then _ else _)
      split
      · show (other ++ (p :: ps ++ [])).Perm (p :: ps ++ other)
        rw [List.append_nil]
        exact List.perm_append_comm
      · show (other.take passed ++ [p] ++ (ps ++ other.drop passed)).Perm (p :: ps ++ other)
        have hkeeps := List.perm_append_comm_assoc (other.take passed) (p :: ps) (other.drop passed)
        rw [hsplit] at hkeeps
        rw [List.append_assoc]
        exact hkeeps

theorem ensures_leap (overHeld : Bool) (held other : List α) :
    Ensures failure (Leap.Keeps held other) (leap wins mirrored overHeld held other) := by
  cases overHeld with
  | true => exact ensures_leapHeld hwins held other
  | false => exact ensures_leapOther hwins held other

theorem ensures_interleave (fuel : Nat) (pace : Pace) (patience : Nat) (held other : List α) :
    Ensures failure (fun r => r.1.Perm (held ++ other))
      (interleave wins mirrored fuel pace patience held other) := by
  induction fuel generalizing pace patience held other with
  | zero => exact perm_leftover held other
  | succ fuel ih =>
      cases hsettled : isSettled held other with
      | true =>
          rw [interleave_of_isSettled hsettled]
          exact perm_leftover held other
      | false =>
          obtain ⟨p, p', ps, q, qs, rfl, rfl⟩ := exists_cons_of_not_isSettled hsettled
          cases pace with
          | step heldStreak otherStreak =>
              rw [interleave]
              refine (hwins q p).bind fun won _ => ?_
              cases won with
              | true =>
                  refine (ih _ _ (p :: p' :: ps) qs).bind fun r hr => ?_
                  exact (hr.cons q).trans List.perm_middle.symm
              | false =>
                  refine (ih _ _ (p' :: ps) (q :: qs)).bind fun r hr => ?_
                  exact hr.cons p
          | leap =>
              rw [interleave]
              refine (ensures_leap hwins (!mirrored) _ _).bind fun first hfirst => ?_
              split
              · exact ((perm_leftover _ _).append_left first.taken).trans hfirst
              · refine (ensures_leap hwins mirrored _ _).bind fun second hsecond => ?_
                have hboth : (first.taken ++ second.taken ++ (second.held ++ second.other)).Perm
                    (p :: p' :: ps ++ q :: qs) := by
                  rw [List.append_assoc]
                  exact (hsecond.append_left first.taken).trans hfirst
                split
                · exact ((perm_leftover _ _).append_left _).trans hboth
                · refine (ih _ _ second.held second.other).bind fun r hr => ?_
                  exact (hr.append_left _).trans hboth

end Interleaving

variable {before : α → α → Except ε Bool}
  (hbefore : ∀ x y, Ensures failure (fun _ => True) (before x y))
include hbefore

theorem ensures_mergeFromFront (patience : Nat) (xs ys : List α) :
    Ensures failure (fun r => r.1.Perm (xs ++ ys)) (mergeFromFront before patience xs ys) := by
  cases ys with
  | nil =>
      rw [List.append_nil]
      exact List.Perm.refl xs
  | cons y ys =>
      refine (ensures_interleave hbefore _ _ patience xs ys).bind fun r hr => ?_
      exact (hr.cons y).trans List.perm_middle.symm

theorem ensures_mergeFromBack (patience : Nat) (xs ys : List α) :
    Ensures failure (fun r => r.1.Perm (xs ++ ys)) (mergeFromBack before patience xs ys) := by
  unfold mergeFromBack
  cases hxs : xs.reverse with
  | nil =>
      rw [List.reverse_eq_nil_iff.mp hxs]
      exact List.Perm.refl ys
  | cons x rest =>
      have hwins : ∀ q p, Ensures failure (fun _ => True) (before p q) := fun q p => hbefore p q
      refine (ensures_interleave hwins _ _ patience ys.reverse rest).bind fun r hr => ?_
      have hturned := (hr.cons x).trans List.perm_middle.symm
      rw [← hxs, ← List.reverse_append] at hturned
      exact (List.reverse_perm _).trans (hturned.trans (List.reverse_perm _))

theorem ensures_merge (patience : Nat) (xs ys : List α) :
    Ensures failure (fun r => r.1.Perm (xs ++ ys)) (merge before patience xs ys) := by
  unfold merge
  cases hy : ys.head? with
  | none =>
      rw [List.head?_eq_none_iff.mp hy, List.append_nil]
      exact List.Perm.refl xs
  | some y =>
      refine (ensures_gallop (hbefore y) false xs).bind fun start _ => ?_
      cases hx : (xs.drop start).getLast? with
      | none =>
          simp only [hx]
          exact List.Perm.refl _
      | some x =>
          simp only [hx]
          refine (ensures_gallop (fun y => hbefore y x) true ys.reverse).bind fun passed _ => ?_
          generalize ys.length - passed = stop
          have hkeeps : ∀ merged : List α, merged.Perm (xs.drop start ++ ys.take stop) →
              (xs.take start ++ merged ++ ys.drop stop).Perm (xs ++ ys) := by
            intro merged hmerged
            have hparts : xs.take start ++ (xs.drop start ++ ys.take stop) ++ ys.drop stop =
                xs ++ ys := by
              rw [← List.append_assoc, List.take_append_drop, List.append_assoc,
                List.take_append_drop]
            rw [← hparts]
            exact (hmerged.append_left _).append_right _
          split
          · refine (ensures_mergeFromFront hbefore patience _ _).bind fun r hr => ?_
            exact hkeeps r.1 hr
          · refine (ensures_mergeFromBack hbefore patience _ _).bind fun r hr => ?_
            exact hkeeps r.1 hr

/-! ### Runs -/

theorem ensures_continueRun (descending : Bool) (last : α) (xs : List α) :
    Ensures failure (fun r => r.1 ++ r.2 = xs) (continueRun before descending last xs) := by
  induction xs generalizing last with
  | nil => rfl
  | cons x xs ih =>
      refine (hbefore x last).bind fun goes _ => ?_
      split
      · refine (ih x).bind fun r hr => ?_
        exact congrArg (x :: ·) hr
      · rfl

/-- Whether a run and the rest have the elements of a list, and the run has some if the list has. -/
def Cuts (xs : List α) (r : List α × List α) : Prop :=
  (r.1 ++ r.2).Perm xs ∧ (xs ≠ [] → r.1 ≠ [])

theorem ensures_firstRun (xs : List α) : Ensures failure (Cuts xs) (firstRun before xs) := by
  match xs with
  | [] => exact ⟨List.Perm.refl _, id⟩
  | [x] => exact ⟨List.Perm.refl _, id⟩
  | x :: y :: rest =>
      refine (hbefore y x).bind fun descending _ => ?_
      refine (ensures_continueRun hbefore descending y rest).bind fun r hr => ?_
      obtain ⟨run, rest⟩ := r
      subst hr
      cases descending with
      | true =>
          refine ⟨(List.reverse_perm (x :: y :: run)).append_right rest, fun _ => ?_⟩
          exact mt List.reverse_eq_nil_iff.mp (List.cons_ne_nil x _)
      | false => exact ⟨List.Perm.refl _, fun _ => List.cons_ne_nil x _⟩

theorem ensures_insertAll (sorted xs : List α) :
    Ensures failure (fun run => run.Perm (sorted ++ xs)) (insertAll before sorted xs) := by
  induction xs generalizing sorted with
  | nil =>
      rw [List.append_nil]
      exact List.Perm.refl sorted
  | cons x xs ih =>
      refine (ensures_bisect (hbefore x) false sorted 0 _).bind fun index _ => ?_
      refine (ih (sorted.take index ++ x :: sorted.drop index)).imp fun run hrun => ?_
      have hinserted : (sorted.take index ++ x :: sorted.drop index).Perm (sorted ++ [x]) := by
        refine List.perm_middle.trans ?_
        rw [List.take_append_drop]
        exact (List.perm_append_singleton x sorted).symm
      rw [List.append_cons]
      exact hrun.trans (hinserted.append_right xs)

theorem ensures_extendedRun (least : Nat) (xs : List α) :
    Ensures failure (Cuts xs) (extendedRun before least xs) := by
  refine (ensures_firstRun hbefore xs).bind fun r hr => ?_
  obtain ⟨run, rest⟩ := r
  obtain ⟨hperm, hne⟩ := hr
  refine (ensures_insertAll hbefore run (rest.take (least - run.length))).bind fun run' hrun => ?_
  constructor
  · have hparts := hrun.append_right (rest.drop (least - run.length))
    rw [List.append_assoc, List.take_append_drop] at hparts
    exact hparts.trans hperm
  · rintro hxs rfl
    exact hne hxs (List.append_eq_nil_iff.mp (List.nil_perm.mp hrun)).1

/-! ### The stack of runs -/

/-- The elements on a stack. -/
def stackItems (stack : List (Pending α)) : List α := stack.flatMap Pending.items

theorem ensures_mergeTop (start power patience : Nat) (top below : Pending α)
    (rest : List (Pending α)) :
    Ensures failure
      (fun r => (stackItems (⟨start, r.1, power⟩ :: rest)).Perm (stackItems (top :: below :: rest)))
      (merge before patience below.items top.items) := by
  refine (ensures_merge hbefore patience below.items top.items).imp fun r hr => ?_
  have hmerged := (hr.trans List.perm_append_comm).append_right (stackItems rest)
  rw [List.append_assoc] at hmerged
  exact hmerged

theorem ensures_settle (power patience : Nat) (stack : List (Pending α)) :
    Ensures failure (fun r => (stackItems r.1).Perm (stackItems stack))
      (settle before power patience stack) := by
  unfold settle
  match stack with
  | [] => exact List.Perm.refl _
  | [_] => exact List.Perm.refl _
  | top :: below :: rest =>
      show Ensures _ _ (if _ then _ else _)
      split
      · refine (ensures_mergeTop hbefore below.start below.power patience top below rest).bind
          fun r hr => ?_
        exact (ensures_settle power r.2 _).imp fun s hs => hs.trans hr
      · exact List.Perm.refl _
termination_by stack.length
decreasing_by simp

theorem ensures_collapse (patience : Nat) (stack : List (Pending α)) :
    Ensures failure (fun r => r.Perm (stackItems stack)) (collapse before patience stack) := by
  unfold collapse
  match stack with
  | [] => exact List.Perm.refl _
  | [run] =>
      rw [stackItems, List.flatMap_singleton]
      exact List.Perm.refl _
  | [top, below] =>
      refine (ensures_mergeTop hbefore 0 0 patience top below []).bind fun r hr => ?_
      rw [stackItems, List.flatMap_singleton] at hr
      exact hr
  | top :: middle :: bottom :: rest =>
      show Ensures _ _ (if _ then _ else _)
      split
      · refine (ensures_mergeTop hbefore bottom.start bottom.power patience middle bottom rest).bind
          fun r hr => ?_
        exact (ensures_collapse r.2 _).imp fun s hs => hs.trans (hr.append_left top.items)
      · refine (ensures_mergeTop hbefore middle.start middle.power patience top middle
          (bottom :: rest)).bind fun r hr => ?_
        exact (ensures_collapse r.2 _).imp fun s hs => hs.trans hr
termination_by stack.length
decreasing_by all_goals simp

theorem ensures_stackRuns (length least fuel start patience : Nat) (stack : List (Pending α))
    (xs : List α) (hfuel : xs.length ≤ fuel) :
    Ensures failure (fun r => (stackItems r.1).Perm (stackItems stack ++ xs))
      (stackRuns before length least fuel start patience stack xs) := by
  induction fuel generalizing start patience stack xs with
  | zero =>
      rw [List.length_eq_zero_iff.mp (Nat.le_zero.mp hfuel), List.append_nil]
      exact List.Perm.refl _
  | succ fuel ih =>
      cases xs with
      | nil =>
          rw [List.append_nil]
          exact List.Perm.refl _
      | cons x xs =>
          refine (ensures_extendedRun hbefore least (x :: xs)).bind fun r hr => ?_
          obtain ⟨run, rest⟩ := r
          obtain ⟨hperm, hne⟩ := hr
          refine (ensures_settle hbefore _ patience stack).bind fun s hs => ?_
          have hrest : rest.length ≤ fuel := by
            have hpos : 0 < run.length := List.length_pos_of_ne_nil (hne (List.cons_ne_nil x xs))
            have hlength := hperm.length_eq
            simp only [List.length_append, List.length_cons] at hlength hfuel
            omega
          refine (ih _ s.2 (⟨start, run, _⟩ :: s.1) rest hrest).imp fun t ht => ht.trans ?_
          show (run ++ stackItems s.1 ++ rest).Perm (stackItems stack ++ x :: xs)
          have hpushed : (run ++ stackItems s.1).Perm (stackItems s.1 ++ run) :=
            List.perm_append_comm
          refine (hpushed.append_right rest).trans ?_
          rw [List.append_assoc]
          exact hs.append hperm

/-- A permutation of what is sorted, or the failure of a comparison. -/
theorem ensures_sort (xs : List α) : Ensures failure (fun r => r.Perm xs) (sort before xs) := by
  refine (ensures_stackRuns hbefore xs.length _ xs.length 0 _ [] xs (Nat.le_refl _)).bind
    fun r hr => ?_
  exact (ensures_collapse hbefore r.2 r.1).imp fun s hs => hs.trans hr

end Sorting
end RecordQuery
