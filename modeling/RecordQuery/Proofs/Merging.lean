import RecordQuery.Proofs.Searching
import RecordQuery.Proofs.StableOrder
import RecordQuery.Sorting

/-! # Merges by a key

Where tests compare keys, a merge of two ascending runs is the library's merge by the key
(`returns_merge`), whatever the pace, the patience and the side from which it is made.

The two runs that are interleaved are kept `Mergeable`: the last held element comes after the whole
other run.  One leap takes a front of their merge and leaves two runs that are mergeable again
(`Leap.Sound`), and either nothing is left to compare or fewer elements are left.  So single steps
and rounds of leaps both lead to the merge (`Interleaves.step`, `Interleaves.leap`), and with fuel
for each element all of it is made (`interleaves`). -/

namespace RecordQuery
namespace Sorting

variable {ε α κ : Type} [LinearOrder κ] {k : α → κ}

/-- Whether a test of the elements of one list against those of another compares their keys. -/
def Compares (k : α → κ) (before : α → α → Except ε Bool) (xs ys : List α) : Prop :=
  ∀ x ∈ xs, ∀ y ∈ ys, before x y = .ok (decide (k x < k y))

/-- Behind an element with a greater key there are only such. -/
theorem Ascending.hasBoundary {xs : List α} (h : Ascending k xs) (c : κ) :
    HasBoundary (fun x => decide (c < k x)) xs :=
  h.imp fun hle hlt => decide_eq_true (lt_of_lt_of_le (of_decide_eq_true hlt) hle)

/-! ### Leaps -/

section Leaps

variable {wins : α → α → Except ε Bool} {mirrored : Bool} {held other held' other' : List α}

/-- Whether two runs can be interleaved by a test: they ascend, the test compares their keys, and
the last held element comes after the other run. -/
structure Mergeable (k : α → κ) (wins : α → α → Except ε Bool) (held other : List α) : Prop where
  compares : Compares k wins other held
  held_ascending : Ascending k held
  other_ascending : Ascending k other
  last : ∃ z, [z] <:+ held ∧ ∀ q ∈ other, k q < k z

theorem Mergeable.held_ne_nil (h : Mergeable k wins held other) : held ≠ [] := by
  rintro rfl
  obtain ⟨z, hz, -⟩ := h.last
  exact absurd (List.suffix_nil.mp hz) (List.cons_ne_nil z [])

theorem Mergeable.suffix (h : Mergeable k wins held other) (hheld : held' <:+ held)
    (hother : other' <:+ other) (hne : held' ≠ []) : Mergeable k wins held' other' where
  compares q hq p hp := h.compares q (hother.subset hq) p (hheld.subset hp)
  held_ascending := h.held_ascending.sublist hheld.sublist
  other_ascending := h.other_ascending.sublist hother.sublist
  last := by
    obtain ⟨z, hz, hlast⟩ := h.last
    exact ⟨z, List.suffix_of_suffix_length_le hz hheld (List.length_pos_of_ne_nil hne),
      fun q hq => hlast q (hother.subset hq)⟩

/-- Where nothing is left to compare, what is left is merged. -/
theorem Mergeable.leftover_eq (h : Mergeable k wins held other)
    (hsettled : isSettled held other = true) :
    leftover held other = held.merge other (byKey k) := by
  obtain ⟨z, hz, hlast⟩ := h.last
  cases held with
  | nil => exact absurd rfl h.held_ne_nil
  | cons p ps =>
      cases ps with
      | nil =>
          obtain rfl : p = z := by simpa [eq_comm] using hz.subset (List.mem_singleton_self z)
          have hfront : ∀ q ∈ other, ∀ p' ∈ [p], k q < k p' := by simpa using hlast
          have hmerge : [p].merge (other ++ []) (byKey k) = other ++ [p].merge [] (byKey k) :=
            merge_append_right hfront
          rw [List.append_nil, List.merge_right] at hmerge
          exact hmerge.symm
      | cons p' ps =>
          have hnil : other = [] := by simpa [isSettled] using hsettled
          subst hnil
          rw [List.merge_right]
          exact List.append_nil _

/-- Whether a leap takes a front of a merge and leaves the rest of it. -/
structure Leap.Sound (k : α → κ) (held other : List α) (l : Leap α) : Prop where
  merge_eq : held.merge other (byKey k) = l.taken ++ l.held.merge l.other (byKey k)
  held_suffix : l.held <:+ held
  other_suffix : l.other <:+ other
  held_ne_nil : l.held ≠ []
  progress : isSettled l.held l.other = true ∨
    l.held.length + l.other.length < held.length + other.length

theorem returns_leapHeld (h : Mergeable k wins held other) :
    Returns (Leap.Sound k held other) (leapHeld wins mirrored held other) := by
  cases other with
  | nil => exact ⟨rfl, List.suffix_refl held, List.suffix_refl [], h.held_ne_nil, .inl rfl⟩
  | cons q qs =>
      have htest := h.compares q List.mem_cons_self
      have hboundary := h.held_ascending.hasBoundary (k q)
      obtain ⟨front, rest, rfl, hindex, hfront, hrest⟩ := hboundary.exists_split
      have hmerge : (front ++ rest).merge (q :: qs) (byKey k) =
          front ++ rest.merge (q :: qs) (byKey k) := by
        refine merge_append_left fun p hp q' hq' => ?_
        exact (not_lt.mp (of_decide_eq_false (hfront p hp))).trans (h.other_ascending.head_le hq')
      have hsuffix : rest <:+ front ++ rest := List.suffix_append front rest
      rw [leapHeld, gallop_eq_findIdx htest hboundary mirrored, hindex]
      show Returns _ (if _ then pure _ else pure _)
      rw [List.take_left, List.drop_left]
      cases rest with
      | nil =>
          -- the last held element is beyond the whole other run
          obtain ⟨z, hz, hlast⟩ := h.last
          rw [List.append_nil] at hz
          have hstay := of_decide_eq_false (hfront z (hz.subset (List.mem_singleton_self z)))
          exact absurd (hlast q List.mem_cons_self) hstay
      | cons p ps =>
          split
          · rename_i hshort
            refine ⟨hmerge, hsuffix, List.suffix_refl _, List.cons_ne_nil p ps, .inl ?_⟩
            simpa [isSettled] using hshort
          · refine ⟨?_, hsuffix, List.suffix_cons q qs, List.cons_ne_nil p ps, .inr ?_⟩
            · rw [hmerge, merge_cons_of_lt (of_decide_eq_true (hrest p List.mem_cons_self)),
                List.append_assoc]
              rfl
            · simp only [List.length_append, List.length_cons]
              omega

theorem returns_leapOther (h : Mergeable k wins held other) :
    Returns (Leap.Sound k held other) (leapOther wins mirrored held other) := by
  cases held with
  | nil => exact absurd rfl h.held_ne_nil
  | cons p ps =>
      have htest : ∀ q ∈ other, (do return !(← wins q p)) = .ok (!decide (k q < k p)) := by
        intro q hq
        rw [h.compares q hq p List.mem_cons_self]
        rfl
      have hboundary : HasBoundary (fun q => !decide (k q < k p)) other := by
        refine h.other_ascending.imp fun hle hnot => ?_
        simp only [Bool.not_eq_true', decide_eq_false_iff_not, not_lt] at hnot ⊢
        exact hnot.trans hle
      obtain ⟨front, rest, rfl, hindex, hfront, hrest⟩ := hboundary.exists_split
      have hmerge : (p :: ps).merge (front ++ rest) (byKey k) =
          front ++ (p :: ps).merge rest (byKey k) := by
        refine merge_append_right fun q hq p' hp' => ?_
        have hlt : k q < k p := by simpa using hfront q hq
        exact lt_of_lt_of_le hlt (h.held_ascending.head_le hp')
      have hsuffix : rest <:+ front ++ rest := List.suffix_append front rest
      rw [leapOther, gallop_eq_findIdx htest hboundary mirrored, hindex]
      show Returns _ (if _ then pure _ else pure _)
      rw [List.take_left, List.drop_left]
      cases rest with
      | nil =>
          rw [if_pos List.isEmpty_nil]
          refine ⟨?_, List.suffix_refl _, hsuffix, List.cons_ne_nil p ps, .inl rfl⟩
          rw [hmerge, List.append_nil]
      | cons q qs =>
          have hle : k p ≤ k q := by simpa using hrest q List.mem_cons_self
          have hne : ps ≠ [] := by
            rintro rfl
            obtain ⟨z, hz, hlast⟩ := h.last
            obtain rfl : z = p := by simpa using hz.subset (List.mem_singleton_self z)
            exact absurd (hlast q (hsuffix.subset List.mem_cons_self)) (not_lt.mpr hle)
          rw [if_neg (by simp)]
          refine ⟨?_, List.suffix_cons p ps, hsuffix, hne, .inr ?_⟩
          · rw [hmerge, merge_cons_of_le hle, List.append_assoc]
            rfl
          · simp only [List.length_append, List.length_cons]
            omega

theorem returns_leap (overHeld : Bool) (h : Mergeable k wins held other) :
    Returns (Leap.Sound k held other) (leap wins mirrored overHeld held other) := by
  cases overHeld with
  | true => exact returns_leapHeld h
  | false => exact returns_leapOther h

theorem Leap.Sound.mergeable {l : Leap α} (hl : l.Sound k held other)
    (h : Mergeable k wins held other) : Mergeable k wins l.held l.other :=
  h.suffix hl.held_suffix hl.other_suffix hl.held_ne_nil

/-! ### Interleaving -/

theorem interleave_of_isSettled (h : isSettled held other = true) (fuel : Nat) (pace : Pace)
    (patience : Nat) :
    interleave wins mirrored fuel pace patience held other =
      .ok (leftover held other, patience) := by
  unfold interleave
  split <;> simp_all [isSettled]

theorem exists_cons_of_not_isSettled (h : isSettled held other = false) :
    ∃ p p' ps q qs, held = p :: p' :: ps ∧ other = q :: qs := by
  unfold isSettled at h
  match held, other with
  | p :: p' :: ps, q :: qs => exact ⟨p, p', ps, q, qs, rfl, rfl⟩
  | [_], _ :: _ => simp at h
  | [], _ :: _ => simp at h
  | _, [] => simp at h

theorem Leap.Sound.merge_eq_trans {first second : Leap α} (hfirst : first.Sound k held other)
    (hsecond : second.Sound k first.held first.other) :
    held.merge other (byKey k) =
      first.taken ++ second.taken ++ second.held.merge second.other (byKey k) := by
  rw [hfirst.merge_eq, hsecond.merge_eq, List.append_assoc]

/-- Whether interleaving with some fuel ends with the merge, whatever the pace and the patience. -/
def Interleaves (k : α → κ) (wins : α → α → Except ε Bool) (mirrored : Bool) (fuel : Nat) : Prop :=
  ∀ (pace : Pace) (patience : Nat) {held other : List α}, Mergeable k wins held other →
    held.length + other.length ≤ fuel → Returns (fun r => r.1 = held.merge other (byKey k))
      (interleave wins mirrored fuel pace patience held other)

variable {fuel : Nat}

theorem Interleaves.step (ih : Interleaves k wins mirrored fuel)
    (heldStreak otherStreak patience : Nat) (h : Mergeable k wins held other)
    (hunsettled : isSettled held other = false) (hfuel : held.length + other.length ≤ fuel + 1) :
    Returns (fun r => r.1 = held.merge other (byKey k))
      (interleave wins mirrored (fuel + 1) (.step heldStreak otherStreak) patience held other) := by
  obtain ⟨p, p', ps, q, qs, rfl, rfl⟩ := exists_cons_of_not_isSettled hunsettled
  simp only [List.length_cons] at hfuel
  rw [interleave, h.compares q List.mem_cons_self p List.mem_cons_self]
  show Returns _ (if _ then _ else _)
  split
  · rename_i hwins
    have hnext := h.suffix (List.suffix_refl _) (List.suffix_cons q qs) h.held_ne_nil
    refine (ih _ _ hnext (by simp only [List.length_cons]; omega)).bind fun r hr => ?_
    rw [merge_cons_of_lt (of_decide_eq_true hwins)]
    exact congrArg (q :: ·) hr
  · rename_i hstays
    have hle : k p ≤ k q := by simpa using hstays
    have hnext := h.suffix (List.suffix_cons p (p' :: ps)) (List.suffix_refl _)
      (List.cons_ne_nil p' ps)
    refine (ih _ _ hnext (by simp only [List.length_cons]; omega)).bind fun r hr => ?_
    rw [merge_cons_of_le hle]
    exact congrArg (p :: ·) hr

theorem Interleaves.leap (ih : Interleaves k wins mirrored fuel) (patience : Nat)
    (h : Mergeable k wins held other) (hunsettled : isSettled held other = false)
    (hfuel : held.length + other.length ≤ fuel + 1) :
    Returns (fun r => r.1 = held.merge other (byKey k))
      (interleave wins mirrored (fuel + 1) .leap patience held other) := by
  obtain ⟨p, p', ps, q, qs, rfl, rfl⟩ := exists_cons_of_not_isSettled hunsettled
  rw [interleave]
  refine (returns_leap (!mirrored) h).bind fun first hfirst => ?_
  have hmergeable := hfirst.mergeable h
  split
  · rename_i hsettled
    show first.taken ++ _ = _
    rw [hfirst.merge_eq, hmergeable.leftover_eq hsettled]
  · rename_i hnot
    have hless := hfirst.progress.resolve_left hnot
    refine (returns_leap mirrored hmergeable).bind fun second hsecond => ?_
    have hmergeable' := hsecond.mergeable hmergeable
    rw [hfirst.merge_eq_trans hsecond]
    split
    · rename_i hsettled
      show first.taken ++ second.taken ++ _ = _
      rw [hmergeable'.leftover_eq hsettled]
    · rename_i hnot'
      have hless' := hsecond.progress.resolve_left hnot'
      refine (ih _ _ hmergeable' (by omega)).bind fun r hr => ?_
      exact congrArg (first.taken ++ second.taken ++ ·) hr

/-- Every step and every round takes an element, so that fuel for each of them is enough. -/
theorem interleaves (k : α → κ) (wins : α → α → Except ε Bool) (mirrored : Bool) (fuel : Nat) :
    Interleaves k wins mirrored fuel := by
  induction fuel with
  | zero =>
      intro pace patience held other h hfuel
      exact absurd (List.length_eq_zero_iff.mp (by omega)) h.held_ne_nil
  | succ fuel ih =>
      intro pace patience held other h hfuel
      cases hsettled : isSettled held other with
      | true =>
          rw [interleave_of_isSettled hsettled]
          exact h.leftover_eq hsettled
      | false =>
          cases pace with
          | step heldStreak otherStreak =>
              exact ih.step heldStreak otherStreak patience h hsettled hfuel
          | leap => exact ih.leap patience h hsettled hfuel

end Leaps

/-! ### Merging -/

section Merging

variable {before : α → α → Except ε Bool} {xs ys : List α}

/-- Whether two runs are to be merged from either end: the second one starts with an element that
comes before the first one, and the first one ends with an element that comes after the second. -/
structure Interlocked (k : α → κ) (before : α → α → Except ε Bool) (xs ys : List α) : Prop where
  compares : Compares k before ys xs
  front_ascending : Ascending k xs
  back_ascending : Ascending k ys
  first : ∃ y, [y] <+: ys ∧ ∀ x ∈ xs, k y < k x
  last : ∃ x, [x] <:+ xs ∧ ∀ y ∈ ys, k y < k x

theorem Interlocked.mergeable (h : Interlocked k before xs ys) : Mergeable k before xs ys :=
  ⟨h.compares, h.front_ascending, h.back_ascending, h.last⟩

theorem Interlocked.mergeable_reverse (h : Interlocked k before xs ys) :
    Mergeable (fun x => OrderDual.toDual (k x)) (fun q p => before p q) ys.reverse xs.reverse where
  compares x hx y hy := h.compares y (List.mem_reverse.mp hy) x (List.mem_reverse.mp hx)
  held_ascending := h.back_ascending.reverse
  other_ascending := h.front_ascending.reverse
  last := by
    obtain ⟨y, hy, hfirst⟩ := h.first
    exact ⟨y, List.reverse_suffix.mpr hy, fun x hx => hfirst x (List.mem_reverse.mp hx)⟩

theorem returns_mergeFromFront (h : Interlocked k before xs ys) (patience : Nat) :
    Returns (fun r => r.1 = xs.merge ys (byKey k)) (mergeFromFront before patience xs ys) := by
  cases ys with
  | nil => exact (List.merge_right xs).symm
  | cons y ys =>
      obtain ⟨_, ⟨_, hy⟩, hfirst⟩ := h.first
      obtain rfl := (List.cons.inj hy).1
      have hrest := h.mergeable.suffix (List.suffix_refl xs) (List.suffix_cons _ ys)
        h.mergeable.held_ne_nil
      refine (interleaves k before false _ _ _ hrest (Nat.le_refl _)).bind fun r hr => ?_
      show _ :: r.1 = _
      rw [hr, merge_cons_right hfirst]

theorem returns_mergeFromBack (h : Interlocked k before xs ys) (patience : Nat) :
    Returns (fun r => r.1 = xs.merge ys (byKey k)) (mergeFromBack before patience xs ys) := by
  have hback := h.mergeable_reverse
  have hmerge := merge_eq_reverse h.front_ascending h.back_ascending
  obtain ⟨z, ⟨front, rfl⟩, hlast⟩ := h.last
  rw [List.reverse_append, List.reverse_singleton, List.singleton_append] at hback hmerge
  have hbehind := hback.suffix (List.suffix_refl _) (List.suffix_cons z _) hback.held_ne_nil
  rw [mergeFromBack, List.reverse_append, List.reverse_singleton, List.singleton_append]
  refine (interleaves _ _ true _ _ _ hbehind ?_).bind fun r hr => ?_
  · rw [List.length_reverse, Nat.add_comm]
  · have hfront : ys.reverse.merge (z :: front.reverse) (byKey fun x => OrderDual.toDual (k x)) =
        z :: ys.reverse.merge front.reverse (byKey fun x => OrderDual.toDual (k x)) :=
      merge_cons_right fun y hy => hlast y (List.mem_reverse.mp hy)
    show (z :: r.1).reverse = _
    rw [hmerge, hfront, hr]

/-- Two runs interlock once the first one has lost what is not after the first element of the
second, and the second one what is not before the last element of the first. -/
theorem interlocked_of_trimmed {left right back : List α} {x y : α} (hl : Ascending k left)
    (hr : Ascending k (right ++ back)) (h : Compares k before (right ++ back) left)
    (hx : left.getLast? = some x) (hy : (right ++ back).head? = some y)
    (hleft : ∀ a ∈ left, k y < k a) (hright : ∀ b ∈ right, k b < k x)
    (hback : ∀ b ∈ back, k x ≤ k b) : Interlocked k before left right where
  compares b hb := h b (List.mem_append_left back hb)
  front_ascending := hl
  back_ascending := hr.sublist (List.sublist_append_left right back)
  first := by
    cases right with
    | nil =>
        have hle := hback y (List.mem_of_head? hy)
        exact absurd (hleft x (List.mem_of_getLast? hx)) (not_lt.mpr hle)
    | cons b right =>
        obtain rfl := Option.some.inj hy
        exact ⟨b, ⟨right, rfl⟩, hleft⟩
  last := by
    obtain ⟨init, rfl⟩ := List.getLast?_eq_some_iff.mp hx
    exact ⟨x, List.suffix_append init [x], hright⟩

/-- Of two ascending runs the front of the first one and the back of the second one are left where
they are, and what lies between them is merged. -/
theorem returns_merge (hxs : Ascending k xs) (hys : Ascending k ys) (h : Compares k before ys xs)
    (patience : Nat) :
    Returns (fun r => r.1 = xs.merge ys (byKey k)) (merge before patience xs ys) := by
  unfold merge
  cases hy : ys.head? with
  | none =>
      rw [List.head?_eq_none_iff.mp hy, List.merge_right]
      rfl
  | some y =>
      have hleast : ∀ b ∈ ys, k y ≤ k b := by
        obtain ⟨rest, rfl⟩ := List.head?_eq_some_iff.mp hy
        exact fun b => hys.head_le
      have hafter := hxs.hasBoundary (k y)
      refine (returns_gallop (h y (List.mem_of_head? hy)) hafter false).bind ?_
      rintro _ rfl
      obtain ⟨front, left, rfl, hindex, hfront, hleft⟩ := hafter.exists_split
      simp only [hindex, List.drop_left, List.take_left]
      rw [merge_append_left fun a ha b hb =>
        (not_lt.mp (of_decide_eq_false (hfront a ha))).trans (hleast b hb)]
      cases hx : left.getLast? with
      | none =>
          rw [List.getLast?_eq_none_iff.mp hx, List.nil_merge, List.append_nil]
          rfl
      | some x =>
          have hl : Ascending k left := hxs.sublist (List.sublist_append_right front left)
          have hcompares : Compares k before ys left :=
            fun b hb a ha => h b hb a (List.mem_append_right front ha)
          have hgreatest : ∀ a ∈ left, k a ≤ k x := by
            obtain ⟨init, rfl⟩ := List.getLast?_eq_some_iff.mp hx
            exact fun a => hl.le_last
          have hbefore : HasBoundary (fun b => decide (k b < k x)) ys.reverse :=
            hys.reverse.hasBoundary (OrderDual.toDual (k x))
          refine (returns_gallop (fun b hb => hcompares b (List.mem_reverse.mp hb) x
            (List.mem_of_getLast? hx)) hbefore true).bind ?_
          rintro _ rfl
          obtain ⟨right, back, rfl, hindex, hright, hback⟩ := hbefore.exists_split_reverse
          have hbehind : ∀ b ∈ back, k x ≤ k b := fun b hb =>
            not_lt.mp (of_decide_eq_false (hback b hb))
          -- between what stays in front and what stays behind, either run ends the merge
          have hinterlocked := interlocked_of_trimmed hl hys hcompares hx hy
            (fun a ha => of_decide_eq_true (hleft a ha))
            (fun b hb => of_decide_eq_true (hright b hb)) hbehind
          simp only [hindex, List.length_append, Nat.add_sub_cancel, List.take_left, List.drop_left]
          rw [merge_append_back fun a ha b hb => (hgreatest a ha).trans (hbehind b hb),
            ← List.append_assoc]
          split
          · refine (returns_mergeFromFront hinterlocked patience).bind fun r hr => ?_
            exact congrArg (front ++ · ++ back) hr
          · refine (returns_mergeFromBack hinterlocked patience).bind fun r hr => ?_
            exact congrArg (front ++ · ++ back) hr

end Merging
end Sorting
end RecordQuery
