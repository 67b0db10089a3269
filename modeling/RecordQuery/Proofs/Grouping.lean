import RecordQuery.Aggregate
import RecordQuery.Proofs.Congruence
import RecordQuery.Proofs.Firsts

/-! # Groups

`groupsBy key docs` says what groups are without building them: each key that no earlier one is the
same as has a group, which holds the sources whose keys are the same as it, in order.  Adding a
source to these groups gives the groups of one source more (`addToGroup_groupsBy`), so grouping
source by source gives the groups of all (`groupInto_groupsBy`).  It fails only for a key that may
not be one: `group_eq_ok_iff`. -/

namespace RecordQuery

/-- What is listed under a key. -/
def listed? {α : Type} (entries : List (Value × α)) (key : Value) : Option α :=
  (entries.find? fun e => key.same e.1).map (·.2)

/-- Applies a function to what is listed under each key. -/
def mapListed {α β : Type} (f : α → β) (entries : List (Value × α)) : List (Value × β) :=
  entries.map fun e => (e.1, f e.2)

theorem listed?_mapListed {α β : Type} (f : α → β) (entries : List (Value × α)) (key : Value) :
    listed? (mapListed f entries) key = (listed? entries key).map f := by
  unfold listed? mapListed
  rw [List.find?_map, Option.map_map, Option.map_map]
  rfl

namespace Context

/-! ### Groups of sources -/

/-- The sources with a key, in order. -/
def withKey (key : Value → Value) (docs : List Value) (k : Value) : List Value :=
  docs.filter fun s => (key s).same k

/-- The groups of sources under some keys. -/
def groupsUnder (key : Value → Value) (docs keys : List Value) : Groups :=
  keys.map fun k => (k, withKey key docs k)

/-- The groups of sources under the keys that no earlier one is the same as. -/
def groupsBy (key : Value → Value) (docs : List Value) : Groups :=
  groupsUnder key docs (firsts Value.same (docs.map key))

variable {key : Value → Value} {docs keys : List Value} {s : Value}

theorem withKey_append (docs more : List Value) (k : Value) :
    withKey key (docs ++ more) k = withKey key docs k ++ withKey key more k :=
  List.filter_append ..

theorem withKey_concat (key : Value → Value) (docs : List Value) (s k : Value) :
    withKey key (docs ++ [s]) k = withKey key docs k ++ if (key s).same k then [s] else [] := by
  unfold withKey
  rw [List.filter_append, List.filter_cons, List.filter_nil]

theorem withKey_eq_nil {k : Value} (h : (docs.map key).any k.same = false) :
    withKey key docs k = [] := by
  refine List.filter_eq_nil_iff.mpr fun s hs => ?_
  rw [List.any_eq_false] at h
  rw [Value.isEquiv_same.comm]
  exact h (key s) (List.mem_map_of_mem hs)

theorem withKey_congr (docs : List Value) {k l : Value} (h : k.same l = true) :
    withKey key docs k = withKey key docs l :=
  List.filter_congr fun s _ => Value.same_congr (Value.same_refl (key s)) h

/-- A source joins none of the groups whose keys differ from its own. -/
theorem groupsUnder_concat_of_ne (h : ∀ k ∈ keys, (key s).same k = false) :
    groupsUnder key (docs ++ [s]) keys = groupsUnder key docs keys := by
  refine List.map_congr_left fun k hk => ?_
  rw [withKey_concat, h k hk, if_neg Bool.false_ne_true, List.append_nil]

theorem addToGroup_groupsUnder (hd : keys.Pairwise fun k l => l.same k = false) :
    addToGroup (key s) s (groupsUnder key docs keys) = groupsUnder key (docs ++ [s]) keys ++
      if keys.any (key s).same then [] else [(key s, [s])] := by
  induction keys with
  | nil => rfl
  | cons k keys ih =>
      have hd := List.pairwise_cons.mp hd
      show (if (key s).same k then _ else _) = (k, withKey key (docs ++ [s]) k) ::
        (groupsUnder key (docs ++ [s]) keys ++ _)
      rw [withKey_concat, List.any_cons]
      cases hk : (key s).same k with
      | true =>
          -- the keys are distinct, so the source joins no other group
          have hrest : ∀ l ∈ keys, (key s).same l = false := by
            intro l hl
            rw [Bool.eq_false_iff]
            intro hsl
            have hlk := Value.same_trans (Value.same_symm hsl) hk
            rw [hd.1 l hl] at hlk
            exact Bool.noConfusion hlk
          rw [groupsUnder_concat_of_ne hrest, Bool.true_or, if_pos rfl, if_pos rfl, if_pos rfl,
            List.append_nil]
          rfl
      | false =>
          rw [if_neg Bool.false_ne_true, if_neg Bool.false_ne_true, List.append_nil, Bool.false_or,
            ← ih hd.2]
          rfl

/-- One more source. -/
theorem addToGroup_groupsBy (key : Value → Value) (docs : List Value) (s : Value) :
    addToGroup (key s) s (groupsBy key docs) = groupsBy key (docs ++ [s]) := by
  have hany := any_related_firsts Value.isEquiv_same (docs.map key) (key s)
  unfold groupsBy
  rw [addToGroup_groupsUnder (pairwise_firsts _ _), hany, List.map_append, List.map_singleton,
    firsts_concat]
  cases hs : (docs.map key).any (key s).same with
  | true => rw [if_pos rfl, if_pos rfl, List.append_nil]
  | false =>
      rw [if_neg Bool.false_ne_true, if_neg Bool.false_ne_true]
      unfold groupsUnder
      rw [List.map_append, List.map_singleton, withKey_concat, withKey_eq_nil hs,
        Value.same_refl, if_pos rfl]
      rfl

theorem keys_groupsBy (key : Value → Value) (docs : List Value) :
    (groupsBy key docs).map (·.1) = firsts Value.same (docs.map key) := by
  unfold groupsBy groupsUnder
  rw [List.map_map]
  exact List.map_id _

theorem any_groupsBy (docs : List Value) (k : Value) :
    ((groupsBy key docs).any fun g => k.same g.1) = (docs.map key).any k.same := by
  rw [← any_related_firsts Value.isEquiv_same, ← keys_groupsBy, List.any_map]
  rfl

/-- Under a key that is the same as that of a source, the sources with this key are listed, and
nothing under any other. -/
theorem listed?_groupsBy_eq (docs : List Value) (k : Value) :
    listed? (groupsBy key docs) k =
      if (docs.map key).any k.same then some (withKey key docs k) else none := by
  have hfind : listed? (groupsBy key docs) k =
      ((firsts Value.same (docs.map key)).find? k.same).map (withKey key docs) := by
    unfold listed? groupsBy groupsUnder
    rw [List.find?_map, Option.map_map]
    rfl
  rw [hfind, ← any_related_firsts Value.isEquiv_same, List.any_eq]
  cases h : (firsts Value.same (docs.map key)).find? k.same with
  | none =>
      rw [if_neg]
      · rfl
      · rw [decide_eq_true_iff]
        simpa using h
  | some l =>
      rw [if_pos (decide_eq_true ⟨l, List.mem_of_find?_eq_some h, List.find?_some h⟩),
        Option.map_some, withKey_congr docs (List.find?_some h)]

theorem listed?_groupsBy {k : Value} (hk : k ∈ firsts Value.same (docs.map key)) :
    listed? (groupsBy key docs) k = some (withKey key docs k) := by
  rw [listed?_groupsBy_eq, if_pos]
  exact List.any_eq_true.mpr ⟨k, mem_of_mem_firsts hk, Value.same_refl k⟩

theorem listed?_sizes {k : Value} (hk : k ∈ firsts Value.same (docs.map key)) :
    listed? ((groupsBy key docs).map fun g => (g.1, g.2.length)) k =
      some (withKey key docs k).length := by
  show listed? (mapListed List.length (groupsBy key docs)) k = _
  rw [listed?_mapListed, listed?_groupsBy hk]
  rfl

/-! ### Grouping a query -/

variable {x : Context} {gs : Groups}

/-- Grouping source by source, where some have been grouped before. -/
theorem groupInto_groupsBy (hkey : ∀ s ∈ docs, x.groupKey s = .ok (key s))
    (hh : ∀ s ∈ docs, (key s).unhashable? = none) (before : List Value) :
    x.groupInto (groupsBy key before) docs = .ok (groupsBy key (before ++ docs)) := by
  induction docs generalizing before with
  | nil => rw [List.append_nil]; rfl
  | cons s docs ih =>
      rw [List.forall_mem_cons] at hkey hh
      rw [groupInto, hkey.1]
      simp only [bind, Except.bind]
      rw [hh.1]
      show x.groupInto (addToGroup (key s) s (groupsBy key before)) docs = _
      rw [addToGroup_groupsBy, ih hkey.2 hh.2, List.append_assoc]
      rfl

theorem unhashable?_of_groupInto (hkey : ∀ s ∈ docs, x.groupKey s = .ok (key s))
    {before : Groups} (h : x.groupInto before docs = .ok gs) :
    ∀ s ∈ docs, (key s).unhashable? = none := by
  induction docs generalizing before with
  | nil => simp
  | cons s docs ih =>
      rw [List.forall_mem_cons] at hkey
      rw [groupInto, hkey.1] at h
      simp only [bind, Except.bind] at h
      split at h
      · cases h
      · rename_i hs
        exact List.forall_mem_cons.mpr ⟨hs, ih hkey.2 h⟩

end Context

/-- The key of a source: what it carries in the field that sources are grouped by, null where it
carries nothing or where there is no such field. -/
def Criteria.keyOf (c : Criteria) (s : Value) : Value :=
  match c.options.groupingField with
  | some (.text name) => if name.isEmpty then .null else (s.carried? name).getD .null
  | _ => .null

/-- Whether the field that sources are grouped by, if any, is named by a text. -/
def Criteria.Groupable (c : Criteria) : Prop :=
  ∀ field, c.options.groupingField = some field → ∃ name, field = .text name

theorem Criteria.keyOf_of_field {c : Criteria} {name : String}
    (h : c.options.groupingField = some (.text name)) (hname : name ≠ "") (s : Value) :
    c.keyOf s = (s.carried? name).getD .null := by
  have hempty : name.isEmpty = false := by
    rw [Bool.eq_false_iff, Ne, String.isEmpty_iff]
    exact hname
  unfold keyOf
  rw [h]
  simp only [hempty, Bool.false_eq_true, if_false]

theorem Criteria.groupable_of_field {c : Criteria} {name : String}
    (h : c.options.groupingField = some (.text name)) : c.Groupable := by
  intro field hfield
  rw [h] at hfield
  exact ⟨name, (Option.some.inj hfield).symm⟩

namespace Context

variable {x : Context} {gs : Groups} {s : Value}

theorem groupKey_eq (hg : x.criteria.Groupable) (hs : s.hasFields = true) :
    x.groupKey s = .ok (x.criteria.keyOf s) := by
  unfold groupKey Criteria.keyOf
  cases hfield : x.criteria.options.groupingField with
  | none => rfl
  | some field =>
      obtain ⟨name, rfl⟩ := hg field hfield
      cases hname : name.isEmpty with
      | true => simp [Value.truthy, hname]
      | false =>
          simp only [Value.truthy, hname, Bool.not_false, if_true, Bool.false_eq_true, if_false]
          exact Value.field_text hs name

/-- A query has groups just when the key of every matched source may be one, and these are the
groups of the matched sources by their keys. -/
theorem group_eq_ok_iff (hc : x.criteria.WellPosed) (hg : x.criteria.Groupable) :
    x.group = .ok gs ↔ (∀ s ∈ x.criteria.selection, (x.criteria.keyOf s).hashable = true) ∧
      gs = groupsBy x.criteria.keyOf x.criteria.selection := by
  have hkey : ∀ s ∈ x.criteria.selection, x.groupKey s = .ok (x.criteria.keyOf s) := fun s hs =>
    groupKey_eq hg (hc.hasFields_of_mem hs)
  have hgroup : x.group = x.groupInto (groupsBy x.criteria.keyOf []) x.criteria.selection := by
    unfold group
    rw [matched_eq hc]
    rfl
  simp only [Value.hashable, Option.isNone_iff_eq_none]
  rw [hgroup]
  constructor
  · intro h
    have hh := unhashable?_of_groupInto hkey h
    rw [groupInto_groupsBy hkey hh] at h
    exact ⟨hh, (Except.ok.inj h).symm⟩
  · rintro ⟨hh, rfl⟩
    exact groupInto_groupsBy hkey hh []

theorem aggregate_eq (h : x.group = .ok gs) :
    x.aggregate = .ok (gs.map fun g => (g.1, g.2.length)) := by
  unfold aggregate
  rw [h]
  rfl

end Context
end RecordQuery
