import Mathlib.Algebra.GroupWithZero.Nat
import RecordQuery.Proofs.Grouping

/-! # Groups partition what a query matches

A source is added to one group and changes no other (`perm_addToGroup`), so the groups of a run
hold the sources that were grouped, each as often as it was (`perm_groupsBy`).  The first source
with a key, its leader, begins the group and gives the key its form (`groupsBy_eq_leaders`).
`Partitions` names all that this makes of groups.

Grouping fails just for a key that may not be one.  Which values may not is decided by a search
through tuples; `hashable_eq_false_iff` says without it what these values are.  The main statement
is `group_partitions`. -/

namespace RecordQuery

/-! ### Values that may not be keys -/

namespace Value

/-- Whether a value is a list, a dictionary, a set that is not frozen or a document, or a tuple with
such a value in it at any depth. -/
inductive HoldsMutable : Value → Prop
  | list (items : List Value) : HoldsMutable (.list items)
  | dict (entries : Dict) : HoldsMutable (.dict entries)
  | set (items : List Value) : HoldsMutable (.set false items)
  | document (fields : Dict) : HoldsMutable (.document fields)
  | tuple {items : List Value} {v : Value} (hv : v ∈ items) (h : HoldsMutable v) :
      HoldsMutable (.tuple items)

theorem hashable_tuple (items : List Value) :
    (Value.tuple items).hashable = items.all hashable := by
  show (firstUnhashable? items).isNone = _
  induction items with
  | nil => rfl
  | cons v items ih =>
      rw [List.all_cons, ← ih, firstUnhashable?]
      unfold hashable
      cases v.unhashable? <;> rfl

/-- The values that may not be keys. -/
theorem hashable_eq_false_iff {v : Value} : v.hashable = false ↔ v.HoldsMutable := by
  induction v using Value.induction with
  | list items => exact iff_of_true rfl (.list items)
  | dict entries => exact iff_of_true rfl (.dict entries)
  | document fields => exact iff_of_true rfl (.document fields)
  | tuple items ih =>
      rw [hashable_tuple, List.all_eq_false]
      constructor
      · rintro ⟨v, hv, hnot⟩
        exact .tuple hv ((ih v hv).mp (Bool.eq_false_iff.mpr hnot))
      · intro h
        cases h with
        | tuple hv h => exact ⟨_, hv, Bool.eq_false_iff.mp ((ih _ hv).mpr h)⟩
  | set frozen items =>
      cases frozen with
      | true => exact iff_of_false (Ne.symm Bool.false_ne_true) (by intro h; cases h)
      | false => exact iff_of_true rfl (.set items)
  | _ => exact iff_of_false (Ne.symm Bool.false_ne_true) (by intro h; cases h)

end Value

namespace Context

variable {key : Value → Value} {docs : List Value} {s : Value}

/-! ### Leaders -/

/-- The sources with a key that no earlier one has. -/
def leaders (key : Value → Value) (docs : List Value) : List Value :=
  firsts (fun s t => (key s).same (key t)) docs

theorem isEquiv_sameKey (key : Value → Value) : IsEquiv fun s t => (key s).same (key t) :=
  ⟨fun s => Value.same_refl (key s), Value.same_symm, Value.same_trans⟩

theorem groupsBy_eq_leaders (key : Value → Value) (docs : List Value) :
    groupsBy key docs = (leaders key docs).map fun s => (key s, withKey key docs (key s)) := by
  unfold groupsBy groupsUnder
  rw [firsts_map, List.map_map]
  rfl

theorem head?_withKey (hs : s ∈ leaders key docs) : (withKey key docs (key s)).head? = some s :=
  head?_filter_of_mem_firsts (isEquiv_sameKey key) hs

/-! ### The sources of all groups -/

/-- A source goes to one group. -/
theorem perm_addToGroup (k s : Value) (gs : Groups) :
    ((addToGroup k s gs).flatMap (·.2)).Perm (gs.flatMap (·.2) ++ [s]) := by
  induction gs with
  | nil => exact .refl [s]
  | cons g gs ih =>
      rw [addToGroup]
      split
      · rw [List.flatMap_cons, List.flatMap_cons, List.append_assoc, List.append_assoc]
        exact List.perm_append_comm.append_left g.2
      · rw [List.flatMap_cons, List.flatMap_cons, List.append_assoc]
        exact ih.append_left g.2

theorem perm_groupsBy (key : Value → Value) (docs : List Value) :
    ((groupsBy key docs).flatMap (·.2)).Perm docs := by
  induction docs using List.reverseRecOn with
  | nil => exact .refl []
  | append_singleton docs s ih =>
      rw [← addToGroup_groupsBy]
      exact (perm_addToGroup (key s) s _).trans (ih.append_right [s])

theorem mem_groupsBy_iff {g : Value × List Value} : g ∈ groupsBy key docs ↔
    g.1 ∈ firsts Value.same (docs.map key) ∧ g.2 = withKey key docs g.1 := by
  unfold groupsBy groupsUnder
  rw [List.mem_map]
  constructor
  · rintro ⟨k, hk, rfl⟩
    exact ⟨hk, rfl⟩
  · rintro ⟨hk, hg⟩
    exact ⟨g.1, hk, Prod.ext rfl hg.symm⟩

theorem same_of_mem_group {g : Value × List Value} (hg : g ∈ groupsBy key docs) (hs : s ∈ g.2) :
    (key s).same g.1 = true := by
  rw [(mem_groupsBy_iff.mp hg).2] at hs
  exact (List.mem_filter.mp hs).2

/-- Every source is in one group: its key is the same as one of the keys, and no two of these are
the same. -/
theorem existsUnique_group (hs : s ∈ docs) : ∃! g, g ∈ groupsBy key docs ∧ s ∈ g.2 := by
  obtain ⟨k, hk, hsk⟩ := exists_mem_firsts Value.isEquiv_same (List.mem_map_of_mem (f := key) hs)
  refine ⟨(k, withKey key docs k), ⟨mem_groupsBy_iff.mpr ⟨hk, rfl⟩, ?_⟩, ?_⟩
  · exact List.mem_filter.mpr ⟨hs, hsk⟩
  · rintro g ⟨hg, hsg⟩
    obtain ⟨hgk, hg2⟩ := mem_groupsBy_iff.mp hg
    have hsame : g.1.same k = true :=
      Value.same_trans (Value.same_symm (same_of_mem_group hg hsg)) hsk
    have hkey : g.1 = k :=
      Value.isEquiv_same.eq_of_pairwise (pairwise_firsts _ _) hgk hk hsame
    exact Prod.ext hkey (by rw [hg2, hkey])

/-! ### Partitions -/

/-- Whether groups part some sources by their keys. -/
structure Partitions (key : Value → Value) (docs : List Value) (gs : Groups) : Prop where
  /-- The groups come in the order of the leaders; each begins with its leader, which gives the key
  its form. -/
  heads : gs.map (fun g => (g.1, g.2.head?)) = (leaders key docs).map fun s => (key s, some s)
  distinct : gs.Pairwise fun g h => h.1.same g.1 = false
  /-- A group holds the sources with its key, in the order of the sources. -/
  members : ∀ g ∈ gs, g.2 = docs.filter fun s => (key s).same g.1
  unique : ∀ s ∈ docs, ∃! g, g ∈ gs ∧ s ∈ g.2
  /-- A source stands in its group as often as among the sources. -/
  counts : ∀ [DecidableEq Value], ∀ g ∈ gs, ∀ s ∈ g.2, g.2.count s = docs.count s
  /-- The groups together hold the sources, each as often as it was given. -/
  perm : (gs.flatMap (·.2)).Perm docs

theorem partitions_groupsBy (key : Value → Value) (docs : List Value) :
    Partitions key docs (groupsBy key docs) where
  heads := by
    rw [groupsBy_eq_leaders, List.map_map]
    exact List.map_congr_left fun s hs => Prod.ext rfl (head?_withKey hs)
  distinct := by
    have hkeys := pairwise_firsts Value.same (docs.map key)
    rw [← keys_groupsBy] at hkeys
    exact List.pairwise_map.mp hkeys
  members g hg := (mem_groupsBy_iff.mp hg).2
  unique _ hs := existsUnique_group hs
  counts g hg s hs := by
    rw [(mem_groupsBy_iff.mp hg).2]
    exact List.count_filter (same_of_mem_group hg hs)
  perm := perm_groupsBy key docs

theorem Partitions.sum_sizes {gs : Groups} (h : Partitions key docs gs) :
    (gs.map fun g => g.2.length).sum = docs.length := by
  rw [← h.perm.length_eq, List.length_flatMap]

/-! ### Grouping a query -/

variable {x : Context}

theorem groupInto_eq_error_iff (hkey : ∀ s ∈ docs, x.groupKey s = .ok (key s)) {before : Groups} :
    (∃ kind, x.groupInto before docs = .error (.unhashable kind)) ↔
      ∃ s ∈ docs, (key s).hashable = false := by
  induction docs generalizing before with
  | nil => simp [groupInto]
  | cons s docs ih =>
      rw [List.forall_mem_cons] at hkey
      rw [List.exists_mem_cons_iff, groupInto, hkey.1]
      simp only [bind, Except.bind]
      split
      · rename_i kind hs
        exact iff_of_true ⟨kind, rfl⟩ (.inl (by rw [Value.hashable, hs]; rfl))
      · rename_i hs
        have hhash : (key s).hashable = true := by rw [Value.hashable, hs]; rfl
        rw [ih hkey.2, hhash]
        simp

theorem group_eq_error_iff (hc : x.criteria.WellPosed) (hg : x.criteria.Groupable) :
    (∃ kind, x.group = .error (.unhashable kind)) ↔
      ∃ s ∈ x.criteria.selection, (x.criteria.keyOf s).HoldsMutable := by
  have hkey : ∀ s ∈ x.criteria.selection, x.groupKey s = .ok (x.criteria.keyOf s) := fun s hs =>
    groupKey_eq hg (hc.hasFields_of_mem hs)
  have hgroup : x.group = x.groupInto [] x.criteria.selection := by
    unfold group
    rw [matched_eq hc]
    rfl
  rw [hgroup, groupInto_eq_error_iff hkey]
  simp only [Value.hashable_eq_false_iff]

theorem aggregate_eq_map (x : Context) :
    x.aggregate = x.group.map (List.map fun g => (g.1, g.2.length)) := by
  unfold aggregate
  cases x.group <;> rfl

theorem aggregate_eq_error_iff {e : Fault} : x.aggregate = .error e ↔ x.group = .error e := by
  rw [aggregate_eq_map, map_eq_error_iff]

/-- Grouping what a query matches, and counting the groups, fails just when the key of a matched
source may not be one.  Otherwise the groups partition the matched sources by their keys, and the
aggregate lists their sizes under the same keys; these add up to the number of matched sources. -/
theorem group_partitions (hc : x.criteria.WellPosed) (hg : x.criteria.Groupable) :
    ∃ docs, x.matched = .ok docs ∧
      ((∃ kind, x.group = .error (.unhashable kind)) ↔
        ∃ s ∈ docs, (x.criteria.keyOf s).HoldsMutable) ∧
      ((∃ kind, x.aggregate = .error (.unhashable kind)) ↔
        ∃ s ∈ docs, (x.criteria.keyOf s).HoldsMutable) ∧
      ((∀ s ∈ docs, ¬(x.criteria.keyOf s).HoldsMutable) →
        ∃ gs sizes, x.group = .ok gs ∧ Partitions x.criteria.keyOf docs gs ∧
          x.aggregate = .ok sizes ∧ sizes = gs.map (fun g => (g.1, g.2.length)) ∧
          x.count = .ok (sizes.map (·.2)).sum) := by
  refine ⟨x.criteria.selection, matched_eq hc, group_eq_error_iff hc hg, ?_, ?_⟩
  · simp only [aggregate_eq_error_iff]
    exact group_eq_error_iff hc hg
  · intro hkeys
    have hhashable : ∀ s ∈ x.criteria.selection, (x.criteria.keyOf s).hashable = true := by
      intro s hs
      rw [← Bool.not_eq_false, Value.hashable_eq_false_iff]
      exact hkeys s hs
    have hgroup : x.group = .ok (groupsBy x.criteria.keyOf x.criteria.selection) :=
      (group_eq_ok_iff hc hg).mpr ⟨hhashable, rfl⟩
    have hparts := partitions_groupsBy x.criteria.keyOf x.criteria.selection
    refine ⟨_, _, hgroup, hparts, aggregate_eq hgroup, rfl, ?_⟩
    rw [count_eq hc, List.map_map]
    exact congrArg _ hparts.sum_sizes.symm

/-- One and a truth value share a group, as do two tuples with sets that list their elements
differently; a document without the field has a group of its own, under null.  A tuple with a list
in it may not be a key. -/
theorem group_partitions_mixed :
    let a : Value := .document [(.text "k", .int 1)]
    let b : Value := .document []
    let c : Value := .document [(.text "k", .tuple [.set true [.text "p", .text "q"]])]
    let d : Value := .record 0 1 [(.text "k", .bool true)]
    let e : Value := .record 1 1 [(.text "k", .tuple [.set true [.text "q", .text "p"]])]
    let f : Value := .document [(.text "k", .tuple [.text "p", .tuple [.list []]])]
    let query : List Value → Context := fun docs =>
      (Criteria.empty.run [.documents (.list docs), .only [.text "k"]]).context
    (∃ gs, (query [a, b, c, a, d, e]).group = .ok gs ∧ gs.map (·.2.length) = [3, 1, 2] ∧
      Partitions (query []).criteria.keyOf [a, b, c, a, d, e] gs) ∧
    ∃ kind, (query [a, f, b]).aggregate = .error (.unhashable kind) := by
  intro a b c d e f query
  constructor
  · obtain ⟨docs, hdocs, -, -, hparts⟩ := group_partitions (x := query [a, b, c, a, d, e])
      (by decide +kernel) (Criteria.groupable_of_field rfl)
    cases hdocs.symm.trans
      (show (query [a, b, c, a, d, e]).matched = .ok [a, b, c, a, d, e] from rfl)
    obtain ⟨gs, sizes, hgroup, hpartition, -⟩ := hparts (by
      intro s hs
      rw [← Value.hashable_eq_false_iff, Bool.not_eq_false]
      revert s
      decide +kernel)
    have hsizes : (query [a, b, c, a, d, e]).group.toOption.map (·.map (·.2.length)) =
        some [3, 1, 2] := by decide +kernel
    rw [hgroup] at hsizes
    exact ⟨gs, hgroup, Option.some.inj hsizes, hpartition⟩
  · obtain ⟨docs, hdocs, -, hfails, -⟩ := group_partitions (x := query [a, f, b])
      (by decide +kernel) (Criteria.groupable_of_field rfl)
    cases hdocs.symm.trans (show (query [a, f, b]).matched = .ok [a, f, b] from rfl)
    refine hfails.mpr ⟨f, by simp, ?_⟩
    exact .tuple (v := .tuple [.list []]) (by simp) (.tuple (List.mem_singleton_self _) (.list []))

end Context
end RecordQuery
