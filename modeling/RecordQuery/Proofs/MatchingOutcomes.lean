import RecordQuery.Proofs.Congruence

/-! # What matching gives

A selector may name its fields by any values that can be keys.  Matching a source then has three
outcomes.  The entries are looked at one after the other: matching fails at the first that the
source cannot be asked for (`accepts_eq_error_iff`), if those before it are satisfied, and it says
yes just when all are satisfied (`accepts_eq_true_iff`).

What it is to satisfy an entry is said here without the search for it: `Value.Carries` says what a
source carries under a name, `Condition.Met` what meets an expected value, and `Value.Refuses` when
a source cannot be asked.  Where a search ends early, `StopsIn` says at which element.  The main
statement is `accepts_outcome`. -/

namespace RecordQuery

/-! ### Searches that stop -/

section StopsIn

variable {α : Type} {passes stops : α → Prop} {x : α} {xs : List α}

/-- Whether a search stops in a list: at some element, where it passes over all before. -/
def StopsIn (passes stops : α → Prop) (xs : List α) : Prop :=
  ∃ before x after, xs = before ++ x :: after ∧ (∀ b ∈ before, passes b) ∧ stops x

theorem not_stopsIn_nil : ¬StopsIn passes stops [] := by
  rintro ⟨before, x, after, h, -⟩
  exact List.append_ne_nil_of_right_ne_nil before (List.cons_ne_nil x after) h.symm

theorem stopsIn_cons :
    StopsIn passes stops (x :: xs) ↔ stops x ∨ passes x ∧ StopsIn passes stops xs := by
  constructor
  · rintro ⟨before, y, after, h, hbefore, hy⟩
    cases before with
    | nil =>
        obtain ⟨rfl, rfl⟩ := List.cons.inj h
        exact .inl hy
    | cons b before =>
        obtain ⟨rfl, rfl⟩ := List.cons.inj h
        rw [List.forall_mem_cons] at hbefore
        exact .inr ⟨hbefore.1, before, y, after, rfl, hbefore.2, hy⟩
  · rintro (hx | ⟨hx, before, y, after, rfl, hbefore, hy⟩)
    · exact ⟨[], x, xs, rfl, List.forall_mem_nil _, hx⟩
    · exact ⟨x :: before, y, after, rfl, List.forall_mem_cons.mpr ⟨hx, hbefore⟩, hy⟩

end StopsIn

/-! ### What a source carries -/

namespace Value

/-- Whether a source carries a value under a name: a document under one of its names or, where a
text is no name of it, under the segments of the text; a record under one of its names. -/
inductive Carries : Value → Value → Value → Prop
  | stored {fields : Dict} {name v : Value} (h : Dict.get? fields name = some v) :
      Carries (.document fields) name v
  | nested {fields : Dict} {name : String} {v : Value}
      (hnone : Dict.get? fields (.text name) = none)
      (h : Path.follow (.dict fields) (Path.segments name) = some v) :
      Carries (.document fields) (.text name) v
  | flat {ident size : Nat} {fields : Dict} {name v : Value} (h : Dict.get? fields name = some v) :
      Carries (.record ident size fields) name v

/-- Whether a source cannot be asked for a name: a document that does not have the name would have
to cut it at its dots, and it is no text. -/
def Refuses (s name : Value) : Prop :=
  name.kind ≠ .text ∧ ∃ fields, s = .document fields ∧ Dict.get? fields name = none

variable {s name v : Value} {fields : Dict} {f : Fault}

theorem lookup_of_hashable (d : Dict) (h : name.hashable = true) :
    Dict.lookup d name = .ok (Dict.get? d name) := by
  unfold hashable at h
  rw [Option.isNone_iff_eq_none] at h
  unfold Dict.lookup
  rw [h]

theorem documentField?_of_get? (hname : name.hashable = true)
    (h : Dict.get? fields name = some v) : documentField? fields name = .ok (some v) := by
  unfold documentField?
  rw [lookup_of_hashable fields hname, h]
  rfl

theorem documentField?_of_none (hname : name.hashable = true)
    (h : Dict.get? fields name = none) (hkind : name.kind ≠ .text) :
    documentField? fields name = .error (.missingAttribute name.kind "split") := by
  unfold documentField?
  rw [lookup_of_hashable fields hname, h]
  cases name with
  | text name => exact absurd rfl hkind
  | _ => rfl

theorem carries_document_text_iff {name : String} :
    Carries (.document fields) (.text name) v ↔ (Value.document fields).carried? name = some v := by
  rw [carried?_document]
  constructor
  · intro h
    cases h with
    | stored h => rw [h, Option.some_or]
    | nested hnone h => rw [hnone, Option.none_or, h]
  · intro h
    cases hget : Dict.get? fields (.text name) with
    | some w =>
        rw [hget, Option.some_or] at h
        exact .stored (hget.trans h)
    | none =>
        rw [hget, Option.none_or] at h
        exact .nested hget h

theorem carries_record_iff {ident size : Nat} :
    Carries (.record ident size fields) name v ↔ Dict.get? fields name = some v := by
  constructor
  · intro h
    cases h with
    | flat h => exact h
  · exact .flat

/-- Asking for a field gives what the source carries. -/
theorem field?_eq_some_iff (hs : s.hasFields = true) (hname : name.hashable = true) :
    s.field? name = .ok (some v) ↔ s.Carries name v := by
  by_cases hkind : name.kind = .text
  · obtain ⟨text, rfl⟩ := kind_eq_text_iff.mp hkind
    rw [field?_text hs, Except.ok.injEq]
    cases s with
    | document fields => exact carries_document_text_iff.symm
    | record ident size fields => exact carries_record_iff.symm
    | _ => exact absurd hs Bool.false_ne_true
  · cases s with
    | document fields =>
        show documentField? fields name = _ ↔ _
        cases hget : Dict.get? fields name with
        | some w =>
            rw [documentField?_of_get? hname hget, Except.ok.injEq, ← hget]
            refine ⟨.stored, fun h => ?_⟩
            cases h with
            | stored h => exact h
            | nested => exact absurd rfl hkind
        | none =>
            rw [documentField?_of_none hname hget hkind]
            refine iff_of_false nofun fun h => ?_
            cases h with
            | stored h => rw [hget] at h; cases h
            | nested => exact hkind rfl
    | record ident size fields =>
        show Dict.lookup fields name = _ ↔ _
        rw [lookup_of_hashable fields hname, Except.ok.injEq, carries_record_iff]
    | _ => exact absurd hs Bool.false_ne_true

/-- Asking for a field fails just when the source cannot be asked. -/
theorem field?_eq_error_iff (hs : s.hasFields = true) (hname : name.hashable = true) :
    s.field? name = .error f ↔ s.Refuses name ∧ f = .missingAttribute name.kind "split" := by
  by_cases hkind : name.kind = .text
  · obtain ⟨text, rfl⟩ := kind_eq_text_iff.mp hkind
    rw [field?_text hs]
    exact iff_of_false nofun fun h => h.1.1 rfl
  · cases s with
    | document fields =>
        show documentField? fields name = _ ↔ _
        cases hget : Dict.get? fields name with
        | some w =>
            rw [documentField?_of_get? hname hget]
            refine iff_of_false nofun ?_
            rintro ⟨⟨-, gs, hgs, hnone⟩, -⟩
            rw [← Value.document.inj hgs, hget] at hnone
            cases hnone
        | none =>
            rw [documentField?_of_none hname hget hkind, Except.error.injEq]
            exact ⟨fun h => ⟨⟨hkind, fields, rfl, hget⟩, h.symm⟩, fun h => h.2.symm⟩
    | record ident size fields =>
        show Dict.lookup fields name = _ ↔ _
        rw [lookup_of_hashable fields hname]
        refine iff_of_false nofun ?_
        rintro ⟨⟨-, gs, hgs, -⟩, -⟩
        cases hgs
    | _ => exact absurd hs Bool.false_ne_true

theorem collection?_eq_some_iff {listed : List Value} : v.collection? = some listed ↔
    v = .list listed ∨ v = .tuple listed ∨ ∃ frozen, v = .set frozen listed := by
  constructor
  · intro h
    cases v with
    | list items => exact .inl (congrArg _ (Option.some.inj h))
    | tuple items => exact .inr (.inl (congrArg _ (Option.some.inj h)))
    | set frozen items => exact .inr (.inr ⟨frozen, congrArg _ (Option.some.inj h)⟩)
    | _ => cases h
  · rintro (rfl | rfl | ⟨frozen, rfl⟩) <;> rfl

end Value

/-! ### What meets an expected value -/

namespace Condition

/-- Whether an expected value lists candidates: it is a dictionary with `$in` for its only key, and
under it a list, a tuple or a set of them. -/
def Lists (expected : Value) (listed : List Value) : Prop :=
  ∃ c, expected = .dict [(.text "$in", c)] ∧
    (c = .list listed ∨ c = .tuple listed ∨ ∃ frozen, c = .set frozen listed)

/-- Whether a value meets an expected one: it equals one of the candidates listed or, where none are
listed, the expected value itself. -/
inductive Met (expected v : Value) : Prop
  | listed {listed : List Value} {c : Value} (h : Lists expected listed) (hc : c ∈ listed)
      (heq : v.eq c = true)
  | equal (h : ∀ listed, ¬Lists expected listed) (heq : v.eq expected = true)

theorem candidates?_eq_some_iff_lists {expected : Value} {listed : List Value} :
    candidates? expected = some listed ↔ Lists expected listed := by
  rw [candidates?_eq_some_iff]
  constructor
  · rintro ⟨⟨key, c⟩, rfl, hkey, hc⟩
    obtain rfl := Value.same_text_iff.mp hkey
    exact ⟨c, rfl, Value.collection?_eq_some_iff.mp hc⟩
  · rintro ⟨c, rfl, hc⟩
    exact ⟨_, rfl, Value.same_refl _, Value.collection?_eq_some_iff.mpr hc⟩

theorem holds_iff_met {expected v : Value} :
    (ofValue expected).holds v = true ↔ Met expected v := by
  unfold ofValue
  cases hc : candidates? expected with
  | some listed =>
      have hlists := candidates?_eq_some_iff_lists.mp hc
      show listed.any v.eq = true ↔ _
      rw [List.any_eq_true]
      constructor
      · rintro ⟨c, hmem, heq⟩
        exact .listed hlists hmem heq
      · intro h
        cases h with
        | listed h hmem heq =>
            rw [← candidates?_eq_some_iff_lists, hc] at h
            cases h
            exact ⟨_, hmem, heq⟩
        | equal h => exact absurd hlists (h listed)
  | none =>
      show v.eq expected = true ↔ _
      constructor
      · intro heq
        refine .equal (fun listed h => ?_) heq
        rw [← candidates?_eq_some_iff_lists, hc] at h
        cases h
      · intro h
        cases h with
        | listed h =>
            rw [← candidates?_eq_some_iff_lists, hc] at h
            cases h
        | equal _ heq => exact heq

end Condition

/-! ### Selectors -/

namespace Selector

variable {s : Value} {selector : Dict} {f : Fault}

/-- A selector accepts a source that satisfies all of its entries. -/
theorem accepts_eq_true_iff :
    accepts selector s = .ok true ↔ ∀ e ∈ selector, satisfies s e.1 e.2 = .ok true := by
  induction selector with
  | nil => simp [accepts]
  | cons e rest ih =>
      rw [accepts, List.forall_mem_cons, ← ih]
      cases satisfies s e.1 e.2 with
      | error f => exact iff_of_false (by intro h; cases h) fun h => by cases h.1
      | ok answer =>
          cases answer with
          | true => exact ⟨fun h => ⟨rfl, h⟩, fun h => h.2⟩
          | false => exact iff_of_false (by intro h; cases h) fun h => by cases h.1

/-- A fault is that of one entry, and the entries before it are satisfied. -/
theorem accepts_eq_error_iff : accepts selector s = .error f ↔
    ∃ before e after, selector = before ++ e :: after ∧
      (∀ b ∈ before, satisfies s b.1 b.2 = .ok true) ∧ satisfies s e.1 e.2 = .error f := by
  show _ ↔ StopsIn (fun b => satisfies s b.1 b.2 = .ok true)
    (fun e => satisfies s e.1 e.2 = .error f) selector
  induction selector with
  | nil => exact iff_of_false (by intro h; cases h) not_stopsIn_nil
  | cons e rest ih =>
      rw [accepts, stopsIn_cons, ← ih]
      cases satisfies s e.1 e.2 with
      | error f' =>
          refine (or_iff_left fun h => ?_).symm
          cases h.1
      | ok answer =>
          cases answer with
          | true =>
              refine ((or_iff_right fun h => ?_).trans (and_iff_right rfl)).symm
              cases h
          | false =>
              refine iff_of_false (fun h => ?_) ?_
              · cases h
              · rintro (h | ⟨h, -⟩) <;> cases h

/-- Whether a source satisfies an entry: it carries the field, with a value that meets the expected
one. -/
def Satisfied (s : Value) (e : Value × Value) : Prop :=
  ∃ v, s.Carries e.1 v ∧ Condition.Met e.2 v

theorem satisfies_eq_true_iff (hs : s.hasFields = true) {e : Value × Value}
    (he : e.1.hashable = true) : satisfies s e.1 e.2 = .ok true ↔ Satisfied s e := by
  unfold Satisfied satisfies
  simp only [← Value.field?_eq_some_iff hs he, ← Condition.holds_iff_met]
  cases s.field? e.1 with
  | error f => exact iff_of_false nofun (by simp)
  | ok found =>
      cases found with
      | none => exact iff_of_false nofun (by simp)
      | some v =>
          show Except.ok _ = _ ↔ _
          simp

theorem satisfies_eq_error_iff {name expected : Value} :
    satisfies s name expected = .error f ↔ s.field? name = .error f := by
  unfold satisfies
  cases s.field? name with
  | error f' =>
      show Except.error f' = _ ↔ _
      rw [Except.error.injEq, Except.error.injEq]
  | ok found => cases found <;> exact iff_of_false nofun nofun

/-- Matching a document or a record with a selector whose keys can be keys fails just when the
source is a document and cannot be asked for the field of some entry while it satisfies the entries
before; otherwise it says whether all entries are satisfied.  Where all fields are named by texts,
it does not fail. -/
theorem accepts_outcome (hs : s.hasFields = true)
    (hkeys : ∀ e ∈ selector, e.1.hashable = true) :
    (∀ f, accepts selector s = .error f ↔
      ∃ before e after, selector = before ++ e :: after ∧ (∀ b ∈ before, Satisfied s b) ∧
        s.Refuses e.1 ∧ f = .missingAttribute e.1.kind "split") ∧
    ((∀ f, accepts selector s ≠ .error f) →
      ∃ answer, accepts selector s = .ok answer ∧
        (answer = true ↔ ∀ e ∈ selector, Satisfied s e)) ∧
    (Named selector →
      ∃ answer, accepts selector s = .ok answer ∧
        (answer = true ↔ ∀ e ∈ selector, Satisfied s e)) := by
  have htrue : accepts selector s = .ok true ↔ ∀ e ∈ selector, Satisfied s e := by
    rw [accepts_eq_true_iff]
    exact forall₂_congr fun e he => satisfies_eq_true_iff hs (hkeys e he)
  have hanswer : (∀ f, accepts selector s ≠ .error f) →
      ∃ answer, accepts selector s = .ok answer ∧
        (answer = true ↔ ∀ e ∈ selector, Satisfied s e) := by
    intro h
    cases houtcome : accepts selector s with
    | error f => exact absurd houtcome (h f)
    | ok answer =>
        rw [houtcome, Except.ok.injEq] at htrue
        exact ⟨answer, rfl, htrue⟩
  refine ⟨fun f => ?_, hanswer, fun hn => hanswer fun f => ?_⟩
  · rw [accepts_eq_error_iff]
    refine exists_congr fun before => exists_congr fun e => exists_congr fun after =>
      and_congr_right fun hsplit => ?_
    have he : e.1.hashable = true := hkeys e (by rw [hsplit]; simp)
    rw [satisfies_eq_error_iff, Value.field?_eq_error_iff hs he]
    refine and_congr_left fun _ => forall₂_congr fun b hb => ?_
    exact satisfies_eq_true_iff hs (hkeys b (by rw [hsplit]; simp [hb]))
  · rw [accepts_eq hs hn]
    exact nofun

/-- A null found under a dotted name, and a text under a tuple, satisfy the first two entries; null
is no name of the document, so the third entry cannot be asked for and the last is not looked at. -/
theorem accepts_outcome_refused :
    let d : Value := .document [(.text "a", .dict [(.text "b", .null)]),
      (.tuple [.null], .text "x")]
    let q : Dict := [(.text "a.b", Condition.oneOfValue [.text "y", .null]),
      (.tuple [.null], .text "x")]
    let p : Dict := q ++ [(.null, .text "z"), (.text "a", .text "z")]
    accepts q d = .ok true ∧ (∀ e ∈ q, Satisfied d e) ∧
      accepts p d = .error (.missingAttribute .null "split") := by
  intro d q p
  have hq : accepts q d = .ok true := rfl
  have hqkeys : ∀ e ∈ q, e.1.hashable = true := by decide
  have hall : ∀ e ∈ q, Satisfied d e := by
    obtain ⟨-, hanswer, -⟩ := accepts_outcome (s := d) rfl hqkeys
    obtain ⟨answer, hok, hiff⟩ := hanswer (by rw [hq]; exact nofun)
    exact hiff.mp (Except.ok.inj (hok.symm.trans hq))
  refine ⟨hq, hall, ?_⟩
  have hpkeys : ∀ e ∈ p, e.1.hashable = true := by decide
  obtain ⟨herror, -⟩ := accepts_outcome (s := d) rfl hpkeys
  exact (herror _).mpr ⟨q, (.null, .text "z"), _, rfl, hall, ⟨by decide, _, rfl, rfl⟩, rfl⟩

end Selector
end RecordQuery
