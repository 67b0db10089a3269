import RecordQuery.Proofs.DistinctValues
import RecordQuery.Proofs.GroupPartition

/-! # Keys of groups and distinct values

Groups and distinct values are found by two searches.  The one tells keys apart by equality, the
other also by kind; it is the finer, so dropping what is equal from the distinct values leaves what
is left of all values (`firsts_firsts`), and these are the keys of groups by the values.

But a query groups by the values of a field only when the field has a name.  Under an empty one all
sources share the key null, while the distinct values are those of the field with the empty name.
`group_keys_iff` says when the two agree. -/

namespace RecordQuery

theorem Criteria.keyOf_of_empty {c : Criteria} (h : c.options.groupingField = some (.text ""))
    (s : Value) : c.keyOf s = .null := by
  unfold keyOf
  rw [h]
  rfl

namespace Context

variable {key value : Value → Value} {docs : List Value}

/-! ### Groups by one function and values of another -/

/-- Whether groups are listed under the given values: the keys are these values, without those that
an earlier one is the same as. -/
def KeyedBy (gs : Groups) (values : List Value) : Prop := gs.map (·.1) = firsts Value.same values

/-- Whether every source is in a group whose key is the same as its value. -/
def ListsUnder (gs : Groups) (docs : List Value) (value : Value → Value) : Prop :=
  ∀ s ∈ docs, ∃ g ∈ gs, (value s).same g.1 = true ∧ s ∈ g.2

theorem keyedBy_groupsBy_iff {values : List Value} : KeyedBy (groupsBy key docs) values ↔
    firsts Value.same (docs.map key) = firsts Value.same values := by
  unfold KeyedBy
  rw [keys_groupsBy]

theorem listsUnder_groupsBy (key : Value → Value) (docs : List Value) :
    ListsUnder (groupsBy key docs) docs key := by
  intro s hs
  obtain ⟨g, ⟨hg, hsg⟩, -⟩ : ∃! g, g ∈ groupsBy key docs ∧ s ∈ g.2 := existsUnique_group hs
  exact ⟨g, hg, same_of_mem_group hg hsg, hsg⟩

/-- The keys that sources are grouped under are keys of sources. -/
theorem exists_key_of_mem_groupsBy {g : Value × List Value} (hg : g ∈ groupsBy key docs) :
    ∃ s ∈ docs, key s = g.1 :=
  List.mem_map.mp (mem_of_mem_firsts (mem_groupsBy_iff.mp hg).1)

/-- Where all keys are null, so is every value that is the same as a key. -/
theorem eq_null_of_same_key (hkey : ∀ s ∈ docs, key s = .null) {v : Value}
    {g : Value × List Value} (hg : g ∈ groupsBy key docs) (hv : v.same g.1 = true) : v = .null := by
  obtain ⟨s, hs, hsg⟩ := exists_key_of_mem_groupsBy hg
  rw [← hsg, hkey s hs] at hv
  exact Value.same_null_iff.mp (Value.same_symm hv)

theorem listsUnder_iff_of_null (hkey : ∀ s ∈ docs, key s = .null) :
    ListsUnder (groupsBy key docs) docs value ↔ ∀ s ∈ docs, value s = .null := by
  constructor
  · intro h s hs
    obtain ⟨g, hg, hsame, -⟩ := h s hs
    exact eq_null_of_same_key hkey hg hsame
  · intro h s hs
    rw [h s hs, ← hkey s hs]
    exact listsUnder_groupsBy key docs s hs

theorem keyedBy_iff_of_null (hkey : ∀ s ∈ docs, key s = .null) :
    KeyedBy (groupsBy key docs) (docs.map value) ↔ ∀ s ∈ docs, value s = .null := by
  constructor
  · intro h s hs
    obtain ⟨k, hk, hsame⟩ :=
      exists_mem_firsts Value.isEquiv_same (List.mem_map_of_mem (f := value) hs)
    rw [← show _ = firsts Value.same (docs.map value) from h] at hk
    obtain ⟨g, hg, rfl⟩ := List.mem_map.mp hk
    exact eq_null_of_same_key hkey hg hsame
  · intro h
    rw [keyedBy_groupsBy_iff, List.map_congr_left fun s hs => (hkey s hs).trans (h s hs).symm]

/-! ### Groups of a query -/

variable {x : Context} {gs : Groups}

/-- The distinct values of a field, without those that an earlier one is the same as, are what is
left of all its values. -/
theorem firsts_distinct (values : List Value) :
    firsts Value.same (firsts Value.alikeAsKeys values) = firsts Value.same values := by
  refine firsts_firsts Value.isEquiv_alikeAsKeys Value.isEquiv_same (fun v w h => ?_) values
  exact (Bool.and_eq_true_iff.mp (Value.alike_of_alikeAsKeys h)).2

/-- The keys of the groups are the distinct values of the field that a query groups by, without
those that an earlier one is the same as, just when the field has a name that is not empty or no
matched source has a value under the empty name; and just then every matched source is in a group
whose key is the same as its value. -/
theorem group_keys_iff (hc : x.criteria.WellPosed) {name : String}
    (hfield : x.criteria.options.groupingField = some (.text name)) (hgroup : x.group = .ok gs) :
    ∃ docs distinct value, x.matched = .ok docs ∧ x.distinct (.text name) = .ok distinct ∧
      (∀ s ∈ docs, s.field (.text name) = .ok (value s)) ∧
      (KeyedBy gs distinct ↔ name ≠ "" ∨ ∀ s ∈ docs, value s = .null) ∧
      (ListsUnder gs docs value ↔ name ≠ "" ∨ ∀ s ∈ docs, value s = .null) := by
  obtain ⟨-, rfl⟩ := (group_eq_ok_iff hc (Criteria.groupable_of_field hfield)).mp hgroup
  refine ⟨x.criteria.selection, firsts Value.alikeAsKeys (x.criteria.valuesOf name),
    Value.fieldOrNull name, matched_eq hc, distinct_eq hc name,
    fun s hs => Value.field_text (hc.hasFields_of_mem hs) name, ?_⟩
  have hvalues : x.criteria.valuesOf name = x.criteria.selection.map (Value.fieldOrNull name) := rfl
  have hkeyed : KeyedBy (groupsBy x.criteria.keyOf x.criteria.selection)
      (firsts Value.alikeAsKeys (x.criteria.valuesOf name)) ↔
      KeyedBy (groupsBy x.criteria.keyOf x.criteria.selection)
        (x.criteria.selection.map (Value.fieldOrNull name)) := by
    rw [keyedBy_groupsBy_iff, keyedBy_groupsBy_iff, firsts_distinct, hvalues]
  rw [hkeyed]
  by_cases hname : name = ""
  · subst hname
    have hkey : ∀ s ∈ x.criteria.selection, x.criteria.keyOf s = .null := fun s _ =>
      Criteria.keyOf_of_empty hfield s
    rw [keyedBy_iff_of_null hkey, listsUnder_iff_of_null hkey]
    simp
  · have hkey : x.criteria.keyOf = Value.fieldOrNull name :=
      funext (Criteria.keyOf_of_field hfield hname)
    rw [hkey]
    exact ⟨iff_of_true (keyedBy_groupsBy_iff.mpr rfl) (.inl hname),
      iff_of_true (listsUnder_groupsBy _ _) (.inl hname)⟩

/-- One and a truth value are two distinct values and one key; a source without the field is under
null. -/
theorem group_keys_iff_mixed :
    let tagged : Value → Value := fun v => .document [(.text "n", v)]
    let docs : List Value := [tagged (.int 1), tagged (.text "a"), .record 0 1 [],
      tagged (.bool true), tagged (.text "a")]
    let x : Context :=
      (Criteria.empty.run [.documents (.list docs), .only [.text "n", .text "m"]]).context
    ∃ gs distinct, x.group = .ok gs ∧ x.distinct (.text "n") = .ok distinct ∧
      gs.length = 3 ∧ distinct.length = 4 ∧ KeyedBy gs distinct ∧
      ∃ g ∈ gs, (Value.bool true).same g.1 = true ∧ tagged (.bool true) ∈ g.2 := by
  intro tagged docs x
  have hc : x.criteria.WellPosed := by decide +kernel
  obtain ⟨gs, hgroup⟩ : ∃ gs, x.group = .ok gs :=
    ⟨_, (group_eq_ok_iff hc (Criteria.groupable_of_field rfl)).mpr ⟨by decide +kernel, rfl⟩⟩
  obtain ⟨matched, distinct, value, hmatched, hdistinct, hvalue, hkeyed, hlists⟩ :=
    group_keys_iff (x := x) hc rfl hgroup
  cases hmatched.symm.trans (show x.matched = .ok docs from rfl)
  have hgroups : x.group.toOption.map List.length = some 3 := by decide +kernel
  have hvalues : (x.distinct (.text "n")).toOption.map List.length = some 4 := by decide +kernel
  rw [hgroup] at hgroups
  rw [hdistinct] at hvalues
  have hmem : tagged (.bool true) ∈ docs := by simp [docs]
  obtain ⟨g, hg, hsame, hin⟩ := hlists.mpr (.inl (by decide)) _ hmem
  have hfield : (tagged (.bool true)).field (.text "n") = .ok (.bool true) := rfl
  rw [← Except.ok.inj (hfield.symm.trans (hvalue _ hmem))] at hsame
  exact ⟨gs, distinct, hgroup, hdistinct, Option.some.inj hgroups, Option.some.inj hvalues,
    hkeyed.mpr (.inl (by decide)), g, hg, hsame, hin⟩

/-- With an empty name for the field, a source is grouped under null and not under its value. -/
theorem group_under_empty_name :
    let d : Value := .document [(.text "", .text "a")]
    let x : Context := (Criteria.empty.run [.documents (.list [d]), .only [.text ""]]).context
    x.criteria.WellPosed ∧ x.criteria.options.groupingField = some (.text "") ∧
      x.group = .ok [(.null, [d])] ∧ x.distinct (.text "") = .ok [.text "a"] ∧
      d.field (.text "") = .ok (.text "a") ∧
      ¬KeyedBy [(.null, [d])] [.text "a"] ∧ ¬∃ g ∈ ([(.null, [d])] : Groups),
        (Value.text "a").same g.1 = true ∧ d ∈ g.2 := by
  intro d x
  refine ⟨by decide +kernel, rfl, rfl, rfl, rfl, fun h => ?_, ?_⟩
  · exact nomatch (List.cons.inj h).1
  · rintro ⟨g, hg, hsame, -⟩
    rw [List.mem_singleton.mp hg] at hsame
    exact Bool.false_ne_true hsame

end Context
end RecordQuery
