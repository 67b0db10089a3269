import RecordQuery.Proofs.Identity
import RecordQuery.Proofs.Lookup
import RecordQuery.Proofs.Reachable
import RecordQuery.Proofs.Window

/-! # Narrowing to identities

A look-up narrows a query by a condition on the identity field.  The condition is stored in the
selector like any other (`admits_insert`): it joins the conditions on other fields, and takes the
place of one on the identity field.  So narrowing is a conjunction with everything but that one
(`admits_forIds`), and it narrows exactly where what it leaves meets the condition it replaced;
this is `narrowing_iff_identityMet`.  Where there is none to replace, narrowing narrows. -/

namespace RecordQuery

/-! ### One condition of a selector -/

namespace Dict

variable {d : Dict} {name : String} {v : Value}

theorem contains_of_get?_none {key : Value} (h : get? d key = none) : contains d key = false :=
  contains_eq_false_iff.mpr (get?_eq_none_iff.mp h)

/-- An entry stands between others that keep their places when it is replaced or erased. -/
theorem exists_split (hd : Distinct d) (h : get? d (.text name) = some v) :
    ∃ front back, d = front ++ (.text name, v) :: back ∧ erase d (.text name) = front ++ back ∧
      ∀ w, insert d (.text name) w = front ++ (.text name, w) :: back := by
  induction d with
  | nil => simp [get?] at h
  | cons e d ih =>
      have hd' := List.pairwise_cons.mp hd
      rw [get?_cons] at h
      by_cases he : (Value.text name).same e.1 = true
      · rw [if_pos he] at h
        obtain ⟨k, u⟩ := e
        obtain rfl := Value.same_text_iff.mp he
        cases h
        -- the keys are distinct, so the rest has no entry under this one
        have hrest : erase d (.text name) = d :=
          erase_of_not_contains (contains_eq_false_iff.mpr hd'.1)
        refine ⟨[], d, rfl, ?_, fun w => ?_⟩
        · unfold erase at hrest ⊢
          rw [List.filter_cons, if_neg (by simp [he]), hrest]
          rfl
        · rw [insert, if_pos he]
          rfl
      · rw [if_neg he] at h
        obtain ⟨front, back, rfl, herase, hinsert⟩ := ih hd'.2 h
        refine ⟨e :: front, back, rfl, ?_, fun w => ?_⟩
        · unfold erase at herase ⊢
          rw [List.filter_cons, if_pos (by simp [he]), herase]
          rfl
        · rw [insert, if_neg he, hinsert w]
          rfl

theorem all_insert (hd : Distinct d) (w : Value) (p : Value × Value → Bool) :
    (insert d (.text name) w).all p = ((erase d (.text name)).all p && p (.text name, w)) := by
  cases h : get? d (.text name) with
  | none =>
      have hc := contains_of_get?_none h
      rw [insert_of_not_contains hc, erase_of_not_contains hc, List.all_append]
      simp
  | some v =>
      obtain ⟨front, back, -, herase, hinsert⟩ := exists_split hd h
      rw [hinsert w, herase, List.all_append, List.all_append, List.all_cons, Bool.and_assoc,
        Bool.and_comm (p _)]

theorem all_eq_erase (hd : Distinct d) (name : String) (p : Value × Value → Bool) :
    d.all p = ((erase d (.text name)).all p &&
      (get? d (.text name)).all fun v => p (.text name, v)) := by
  cases h : get? d (.text name) with
  | none => rw [erase_of_not_contains (contains_of_get?_none h), Option.all_none, Bool.and_true]
  | some v =>
      obtain ⟨front, back, hd', herase, -⟩ := exists_split hd h
      rw [herase, List.all_append, Bool.and_assoc, Option.all_some, Bool.and_comm (back.all p)]
      conv_lhs => rw [hd', List.all_append, List.all_cons]

end Dict

namespace Selector

variable {selector : Dict} {s : Value}

theorem named_erase (hn : Named selector) (key : Value) : Named (Dict.erase selector key) :=
  fun e he => hn e (List.mem_of_mem_filter he)

theorem named_insert (hn : Named selector) (name : String) (v : Value) :
    Named (Dict.insert selector (.text name) v) := by
  intro e he
  rcases Dict.key_of_mem_insert he with ⟨f, hf, hfe⟩ | he
  · rw [← hfe]
    exact hn f hf
  · exact ⟨name, he⟩

/-- A condition joins those on other fields. -/
theorem admits_insert (hs : s.hasFields = true) (hn : Named selector)
    (hd : Dict.Distinct selector) (name : String) (v : Value) :
    admits (Dict.insert selector (.text name) v) s =
      (admits (Dict.erase selector (.text name)) s && meets s (.text name) v) := by
  rw [admits_eq_all hs (named_insert hn name v), admits_eq_all hs (named_erase hn _),
    Dict.all_insert hd]

theorem admits_eq_erase (hs : s.hasFields = true) (hn : Named selector)
    (hd : Dict.Distinct selector) (name : String) :
    admits selector s = (admits (Dict.erase selector (.text name)) s &&
      (Dict.get? selector (.text name)).all (meets s (.text name))) := by
  rw [admits_eq_all hs hn, admits_eq_all hs (named_erase hn _), Dict.all_eq_erase hd name]

end Selector

/-! ### Narrowed criteria -/

namespace Criteria

variable {c : Criteria} {s : Value}

/-- The name of the identity field. -/
def identityKey (c : Criteria) : Value := .text c.settings.idField

/-- Whether a source meets the condition that the selector has on the identity field, if any. -/
def identityMet (c : Criteria) (s : Value) : Bool :=
  (Dict.get? c.selector c.identityKey).all (Selector.meets s c.identityKey)

/-- The criteria with a condition on one field, in the place of one on the same field. -/
def require (c : Criteria) (name : String) (v : Value) : Criteria :=
  c.withConditions [(.text name, v)]

theorem wellPosed_require (hc : c.WellPosed) (name : String) (v : Value) :
    (c.require name v).WellPosed :=
  ⟨hc.sources, Selector.named_insert hc.names name v⟩

theorem admits_require (hv : c.Valid) (hn : Selector.Named c.selector) (hs : s.hasFields = true)
    (name : String) (v : Value) : Selector.admits (c.require name v).selector s =
      (Selector.admits (Dict.erase c.selector (.text name)) s &&
        Selector.meets s (.text name) v) :=
  Selector.admits_insert hs hn hv.selector name v

theorem wellPosed_forIds (hc : c.WellPosed) (ids : Value) : (c.forIds ids).WellPosed :=
  wellPosed_require hc c.settings.idField (Identity.expectation ids)

theorem admits_forIds (hv : c.Valid) (hn : Selector.Named c.selector) (hs : s.hasFields = true)
    (ids : Value) : Selector.admits (c.forIds ids).selector s =
      (Selector.admits (Dict.erase c.selector c.identityKey) s &&
        Selector.meets s c.identityKey (Identity.expectation ids)) :=
  admits_require hv hn hs c.settings.idField (Identity.expectation ids)

/-- What narrowing leaves matched before just when it meets the condition that was replaced. -/
theorem admits_of_forIds (hv : c.Valid) (hn : Selector.Named c.selector)
    (hs : s.hasFields = true) {ids : Value}
    (h : Selector.admits (c.forIds ids).selector s = true) :
    Selector.admits c.selector s = c.identityMet s := by
  rw [admits_forIds hv hn hs, Bool.and_eq_true] at h
  have := Selector.admits_eq_erase hs hn hv.selector c.settings.idField
  rw [this, show Selector.admits (Dict.erase c.selector (.text c.settings.idField)) s = true from
    h.1, Bool.true_and]
  rfl

theorem identityMet_of_not_contains (h : Dict.contains c.selector c.identityKey = false)
    (s : Value) : c.identityMet s = true := by
  have hg := Dict.get?_eq_none_iff.mpr (Dict.contains_eq_false_iff.mp h)
  unfold identityMet
  rw [hg, Option.all_none]

/-- Narrowing narrows exactly where what it leaves meets the condition it replaced. -/
theorem sublist_selection_iff (hv : c.Valid) (hc : c.WellPosed) (ids : Value) :
    (c.forIds ids).selection.Sublist c.selection ↔
      ∀ s ∈ (c.forIds ids).selection, c.identityMet s = true := by
  constructor
  · intro h s hs
    obtain ⟨hmem, hadm⟩ := List.mem_filter.mp hs
    rw [← admits_of_forIds hv hc.names (hc.sources s hmem) hadm]
    exact (List.mem_filter.mp (h.subset hs)).2
  · intro h
    have hle : ∀ s ∈ c.documents, Selector.admits (c.forIds ids).selector s =
        (Selector.admits (c.forIds ids).selector s && Selector.admits c.selector s) := by
      intro s hs
      cases hadm : Selector.admits (c.forIds ids).selector s with
      | false => rfl
      | true =>
          rw [admits_of_forIds hv hc.names (hc.sources s hs) hadm,
            h s (List.mem_filter.mpr ⟨hs, hadm⟩), Bool.true_and]
    have heq : (c.forIds ids).selection =
        c.selection.filter (Selector.admits (c.forIds ids).selector) := by
      unfold selection
      rw [List.filter_filter]
      exact List.filter_congr hle
    rw [heq]
    exact List.filter_sublist

end Criteria

/-! ### Look-ups -/

namespace Context

variable {x : Context} {ids : Value}

/-- Whether arranging gives no source that it was not given. -/
def ArrangesGiven (x : Context) : Prop :=
  ∀ docs arranged, x.arrange docs = .ok arranged → ∀ s ∈ arranged, s ∈ docs

theorem narrowed_arranged (hc : x.criteria.WellPosed) (ids : Value) :
    (x.narrowed ids).arranged = x.arrange (x.criteria.forIds ids).selection :=
  arranged_eq (x := x.narrowed ids) (Criteria.wellPosed_forIds hc ids)

/-- A look-up finds only what narrowing leaves. -/
theorem mem_selection_of_find (hc : x.criteria.WellPosed) (hg : x.ArrangesGiven) {found : Found}
    (h : (x.find ids).outcome = .ok found) :
    ∀ s ∈ found.sources, s ∈ (x.criteria.forIds ids).selection := by
  cases hi : Identity.isCollection ids with
  | true =>
      rw [find_collection hi, execute_outcome, narrowed_arranged hc] at h
      cases ha : x.arrange (x.criteria.forIds ids).selection with
      | error e => rw [ha] at h; cases h
      | ok docs =>
          rw [ha] at h
          simp only [Except.map] at h
          split at h
          · cases h
          · cases h
            intro s hs
            exact hg _ docs ha s (mem_of_mem_window hs)
  | false =>
      rw [find_single hi, narrowed_arranged hc] at h
      cases ha : x.arrange (x.criteria.forIds ids).selection with
      | error e => rw [ha] at h; cases h
      | ok docs =>
          rw [ha] at h
          obtain ⟨s, hd, -, rfl⟩ := answer_eq_ok_iff.mp h
          intro t ht
          obtain rfl := List.mem_singleton.mp ht
          exact hg _ docs ha t (List.mem_of_head? hd)

/-- Narrowing to ids leaves matched sources exactly where what it leaves meets the condition on
the identity field that it replaced, so always where there was none.  A look-up finds only what
narrowing leaves, and what it finds was matched before on the same terms. -/
theorem narrowing_iff_identityMet (hr : x.criteria.Reachable) (hc : x.criteria.WellPosed)
    (ids : Value) :
    ∃ before after, x.matched = .ok before ∧ (x.narrowed ids).matched = .ok after ∧
      (after.Sublist before ↔ ∀ s ∈ after, x.criteria.identityMet s = true) ∧
      (Dict.contains x.criteria.selector x.criteria.identityKey = false →
        after.Sublist before) ∧
      (x.ArrangesGiven → ∀ found, (x.find ids).outcome = .ok found → ∀ s ∈ found.sources,
        s ∈ after ∧ (s ∈ before ↔ x.criteria.identityMet s = true)) := by
  have hv := hr.valid
  have hiff := Criteria.sublist_selection_iff hv hc ids
  refine ⟨x.criteria.selection, (x.criteria.forIds ids).selection, matched_eq hc,
    matched_eq (x := x.narrowed ids) (Criteria.wellPosed_forIds hc ids), hiff, ?_, ?_⟩
  · intro hnone
    exact hiff.mpr fun s _ => Criteria.identityMet_of_not_contains hnone s
  · intro hg found hf s hs
    have hmem := mem_selection_of_find hc hg hf s hs
    obtain ⟨hdoc, hadm⟩ := List.mem_filter.mp hmem
    refine ⟨hmem, ?_⟩
    rw [← Criteria.admits_of_forIds hv hc.names (hc.sources s hdoc) hadm]
    exact ⟨fun h => (List.mem_filter.mp h).2, fun h => List.mem_filter.mpr ⟨hdoc, h⟩⟩

/-- A condition on another field is kept: of the two documents asked for, one is left. -/
theorem narrowing_keeps_other_field :
    let a : Value := .document [(.text "_id", .text "a"), (.text "n", .text "1")]
    let b : Value := .document [(.text "_id", .text "b"), (.text "n", .text "2")]
    let x : Context := (Criteria.empty.run [.documents (.list [a, b]),
      .filter (.dict [(.text "n", .text "2")]) []]).context
    ∃ before after, x.matched = .ok before ∧
      (x.narrowed (.list [.text "a", .text "b"])).matched = .ok after ∧ after.Sublist before ∧
      ∀ found, (x.find (.list [.text "a", .text "b"])).outcome = .ok found →
        ∀ s ∈ found.sources, s ∈ before := by
  intro a b x
  have hr : x.criteria.Reachable := Criteria.reachable_empty.run _
  have hg : x.ArrangesGiven := by
    rintro docs _ ⟨⟩ s hs
    exact hs
  obtain ⟨before, after, hb, ha, -, hsub, hfound⟩ :=
    narrowing_iff_identityMet hr (by decide +kernel) (.list [.text "a", .text "b"])
  have hsub := hsub (by decide +kernel)
  exact ⟨before, after, hb, ha, hsub, fun found hf s hs => hsub.subset (hfound hg found hf s hs).1⟩

/-- A condition on the identity field is replaced: a query for one document, narrowed to another,
finds the other. -/
theorem narrowing_replaces_identity :
    let a : Value := .document [(.text "_id", .text "a")]
    let b : Value := .document [(.text "_id", .text "b")]
    let x : Context := (Criteria.empty.run [.documents (.list [a, b]),
      .filter (.dict [(.text "_id", .text "a")]) []]).context
    x.criteria.Reachable ∧ x.criteria.WellPosed ∧ x.matched = .ok [a] ∧
      (x.narrowed (.text "b")).matched = .ok [b] ∧
      (x.find (.text "b")).outcome = .ok (.one b) ∧ b ∉ [a] := by
  intro a b x
  refine ⟨Criteria.reachable_empty.run _, by decide +kernel, rfl, rfl, rfl, ?_⟩
  simp [a, b]

end Context
end RecordQuery
