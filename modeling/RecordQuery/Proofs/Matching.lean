import RecordQuery.Context
import RecordQuery.Proofs.DistinctKeys

/-! # Matching without faults

Matching may fail, for a source without fields or for a name that is no text.  Over documents and
records, and with texts for names, it never does: `accepts_eq` gives its outcome as a conjunction
over the entries of the selector, whatever their order, and `matched_eq`, `count_eq` and `hasAny_eq`
give the stages of a query as a plain filter of its sources.  `Criteria.WellPosed` names the two
conditions. -/

namespace RecordQuery

/-- What is done with the result of a computation does not change how it fails. -/
theorem map_eq_error_iff {α β : Type} {g : α → β} {r : Except Fault α} {f : Fault} :
    r.map g = .error f ↔ r = .error f := by
  cases r with
  | error e =>
      show Except.error e = _ ↔ _
      rw [Except.error.injEq, Except.error.injEq]
  | ok a => exact iff_of_false nofun nofun

/-! ### Fields with a text for a name -/

namespace Value

/-- The field that a source carries under a name. -/
def carried? : Value → String → Option Value
  | .document fields, name =>
    (Dict.get? fields (.text name)).or (Path.follow (.dict fields) (Path.segments name))
  | .record _ _ fields, name => Dict.get? fields (.text name)
  | _, _ => none

theorem carried?_document (fields : Dict) (name : String) :
    (Value.document fields).carried? name =
      (Dict.get? fields (.text name)).or (Path.follow (.dict fields) (Path.segments name)) := rfl

theorem lookup_text (d : Dict) (name : String) :
    Dict.lookup d (.text name) = .ok (Dict.get? d (.text name)) := rfl

theorem field?_text {s : Value} (hs : s.hasFields = true) (name : String) :
    s.field? (.text name) = .ok (s.carried? name) := by
  cases s with
  | document fields =>
      simp only [field?, documentField?, lookup_text, carried?]
      cases Dict.get? fields (.text name) <;> rfl
  | record _ _ fields => rfl
  | _ => exact absurd hs Bool.false_ne_true

theorem fieldOr_text {s : Value} (hs : s.hasFields = true) (name : String) (default : Value) :
    s.fieldOr (.text name) default = .ok ((s.carried? name).getD default) := by
  unfold fieldOr
  rw [field?_text hs]
  rfl

/-- The value of a field, null where it is absent or there are no fields. -/
def fieldOrNull (name : String) (s : Value) : Value := (s.carried? name).getD .null

theorem field_text {s : Value} (hs : s.hasFields = true) (name : String) :
    s.field (.text name) = .ok (s.fieldOrNull name) := fieldOr_text hs name .null

end Value

theorem Value.kind_eq_text_iff {v : Value} : v.kind = .text ↔ ∃ name, v = .text name := by
  constructor
  · intro h
    cases v with
    | text name => exact ⟨name, rfl⟩
    | number n => cases n <;> exact nomatch h
    | set frozen items => cases frozen <;> exact nomatch h
    | _ => exact nomatch h
  · rintro ⟨name, rfl⟩
    rfl

/-! ### Selectors -/

namespace Selector

/-- Whether all fields are named by texts. -/
def Named (selector : Dict) : Prop := ∀ e ∈ selector, ∃ name, e.1 = .text name

instance (selector : Dict) : Decidable (Named selector) :=
  decidable_of_iff (∀ e ∈ selector, e.1.kind = .text)
    (forall₂_congr fun _ _ => Value.kind_eq_text_iff)

/-- Whether a source satisfies an entry, where a fault counts as no. -/
def meets (s name expected : Value) : Bool := (satisfies s name expected).toOption.getD false

/-- Whether a source matches a selector, where a fault counts as no. -/
def admits (selector : Dict) (s : Value) : Bool := (accepts selector s).toOption.getD false

variable {s : Value} {selector : Dict}

theorem satisfies_text (hs : s.hasFields = true) (name : String) (expected : Value) :
    satisfies s (.text name) expected =
      .ok ((s.carried? name).any (Condition.ofValue expected).holds) := by
  unfold satisfies
  rw [Value.field?_text hs]
  cases s.carried? name <;> rfl

theorem meets_text (hs : s.hasFields = true) (name : String) (expected : Value) :
    meets s (.text name) expected = (s.carried? name).any (Condition.ofValue expected).holds := by
  unfold meets
  rw [satisfies_text hs]
  rfl

theorem satisfies_eq (hs : s.hasFields = true) (name : String) (expected : Value) :
    satisfies s (.text name) expected = .ok (meets s (.text name) expected) := by
  rw [satisfies_text hs, meets_text hs]

theorem accepts_eq_all (hs : s.hasFields = true) (hn : Named selector) :
    accepts selector s = .ok (selector.all fun e => meets s e.1 e.2) := by
  induction selector with
  | nil => rfl
  | cons e rest ih =>
      obtain ⟨name, expected⟩ := e
      obtain ⟨text, rfl⟩ := hn _ List.mem_cons_self
      rw [accepts, satisfies_eq hs, ih fun f hf => hn f (List.mem_cons_of_mem _ hf), List.all_cons]
      cases meets s (.text text) expected <;> rfl

theorem admits_eq_all (hs : s.hasFields = true) (hn : Named selector) :
    admits selector s = selector.all fun e => meets s e.1 e.2 := by
  unfold admits
  rw [accepts_eq_all hs hn]
  rfl

/-- Matching gives an answer. -/
theorem accepts_eq (hs : s.hasFields = true) (hn : Named selector) :
    accepts selector s = .ok (admits selector s) := by
  rw [accepts_eq_all hs hn, admits_eq_all hs hn]

theorem filter_eq {docs : List Value} (hd : ∀ s ∈ docs, s.hasFields = true)
    (hn : Named selector) : filter selector docs = .ok (docs.filter (admits selector)) := by
  induction docs with
  | nil => rfl
  | cons s docs ih =>
      rw [List.forall_mem_cons] at hd
      rw [filter, accepts_eq hd.1 hn, ih hd.2, List.filter_cons]
      cases admits selector s <;> rfl

theorem holdsForSome_eq {docs : List Value} (hd : ∀ s ∈ docs, s.hasFields = true)
    (hn : Named selector) : holdsForSome selector docs = .ok (docs.any (admits selector)) := by
  induction docs with
  | nil => rfl
  | cons s docs ih =>
      rw [List.forall_mem_cons] at hd
      rw [holdsForSome, accepts_eq hd.1 hn, ih hd.2, List.any_cons]
      cases admits selector s <;> rfl

end Selector

/-! ### Queries -/

/-- Whether criteria run over documents and records and name fields by texts. -/
structure Criteria.WellPosed (c : Criteria) : Prop where
  sources : ∀ s ∈ c.documents, s.hasFields = true
  names : Selector.Named c.selector

instance (c : Criteria) : Decidable c.WellPosed :=
  decidable_of_iff ((∀ s ∈ c.documents, s.hasFields = true) ∧ Selector.Named c.selector)
    ⟨fun h => ⟨h.1, h.2⟩, fun h => ⟨h.sources, h.names⟩⟩

/-- The sources that match the selector, where a fault counts as no match. -/
def Criteria.selection (c : Criteria) : List Value :=
  c.documents.filter (Selector.admits c.selector)

theorem Criteria.WellPosed.hasFields_of_mem {c : Criteria} (h : c.WellPosed) {s : Value}
    (hs : s ∈ c.selection) : s.hasFields = true :=
  h.sources s (List.mem_filter.mp hs).1

namespace Context

variable {x : Context}

theorem matched_eq (h : x.criteria.WellPosed) : x.matched = .ok x.criteria.selection :=
  Selector.filter_eq h.sources h.names

theorem count_eq (h : x.criteria.WellPosed) : x.count = .ok x.criteria.selection.length := by
  unfold count
  rw [matched_eq h]
  rfl

theorem hasAny_eq (h : x.criteria.WellPosed) :
    x.hasAny = .ok (x.criteria.documents.any (Selector.admits x.criteria.selector)) :=
  Selector.holdsForSome_eq h.sources h.names

theorem arranged_eq (h : x.criteria.WellPosed) :
    x.arranged = x.arrange x.criteria.selection := by
  unfold arranged
  rw [matched_eq h]
  rfl

theorem arrange_of_unarranged (h : x.criteria.options.sort = none) (docs : List Value) :
    x.arrange docs = .ok docs := by
  unfold arrange
  rw [h]

end Context
end RecordQuery
