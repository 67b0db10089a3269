import RecordQuery.Proofs.SingleLookup
import RecordQuery.Proofs.UuidText

/-! # Ids that find each other

An id finds a source that is stored under another id just when the other one is among its variants
(`Identity.finds_iff`).  Two identifiers, or two texts, find each other only when they are the same
id.  An identifier and a text find each other when the text is the canonical one.

Any other text of the identifier breaks the symmetry: it has the identifier for a variant, but the
identifier has only the canonical text for one.  So the text finds what is stored under the
identifier, and what is stored under the text is not found by the identifier.  Since the canonical
text is read as its identifier, these texts are the only exception, and `finds_symm_iff` says so. -/

namespace RecordQuery

/-- Whether a value is a text or an identifier. -/
inductive Value.IsId : Value → Prop
  | text (s : String) : IsId (.text s)
  | uuid (u : Uuid) : IsId (.uuid u)

theorem Value.IsId.eq_eq_same {v : Value} (hv : v.IsId) : v.eq = v.same := by
  funext w
  cases hv <;> rfl

theorem Value.IsId.not_collection {v : Value} (hv : v.IsId) : Identity.isCollection v = false := by
  cases hv <;> rfl

theorem Value.IsId.not_condition {v : Value} (hv : v.IsId) : Condition.candidates? v = none := by
  cases hv <;> rfl

/-! ### Variants of texts and identifiers -/

namespace Identity

/-- Whether the second of two ids is an identifier and the first another text of it than the
canonical one. -/
def IsOtherSpelling (v w : Value) : Prop :=
  ∃ s u, v = .text s ∧ w = .uuid u ∧ Uuid.ofText? s = some u ∧ s ≠ u.text

theorem not_isOtherSpelling_of_uuid {u : Uuid} {w : Value} : ¬IsOtherSpelling (.uuid u) w :=
  fun ⟨_, _, h, _⟩ => nomatch h

theorem not_isOtherSpelling_of_text {v : Value} {s : String} : ¬IsOtherSpelling v (.text s) :=
  fun ⟨_, _, _, h, _⟩ => nomatch h

theorem text_variant_text_iff {s t : String} :
    (Value.text t).memberOf (variants (.text s)) = true ↔ t = s := by
  have hsame : (Value.text t).same (.text s) = true ↔ t = s := beq_iff_eq
  unfold Value.memberOf
  cases hs : Uuid.ofText? s with
  | none => rw [variants_text_of_none hs, List.any_cons, List.any_nil, Bool.or_false, hsame]
  | some u =>
      have hother : (Value.text t).same (.uuid u) = false := rfl
      rw [variants_text_of_some hs, List.any_cons, List.any_cons, List.any_nil, hother,
        Bool.or_false, Bool.or_false, hsame]

theorem uuid_variant_text_iff {s : String} {u : Uuid} :
    (Value.uuid u).memberOf (variants (.text s)) = true ↔ Uuid.ofText? s = some u := by
  have hother : (Value.uuid u).same (.text s) = false := rfl
  unfold Value.memberOf
  cases hs : Uuid.ofText? s with
  | none =>
      rw [variants_text_of_none hs, List.any_cons, List.any_nil, hother]
      exact iff_of_false Bool.false_ne_true nofun
  | some v =>
      have hsame : (Value.uuid u).same (.uuid v) = true ↔ u = v := beq_iff_eq
      rw [variants_text_of_some hs, List.any_cons, List.any_cons, List.any_nil, Bool.or_false,
        hother, Bool.false_or, hsame]
      exact ⟨fun h => h ▸ rfl, fun h => (Option.some.inj h).symm⟩

theorem text_variant_uuid_iff {u : Uuid} {s : String} :
    (Value.text s).memberOf (variants (.uuid u)) = true ↔ s = u.text := by
  have hsame : (Value.text s).same (.text u.text) = true ↔ s = u.text := beq_iff_eq
  have hother : (Value.text s).same (.uuid u) = false := rfl
  unfold variants Value.memberOf
  rw [List.any_cons, List.any_cons, List.any_nil, Bool.or_false, hother, Bool.false_or, hsame]

theorem uuid_variant_uuid_iff {u v : Uuid} :
    (Value.uuid v).memberOf (variants (.uuid u)) = true ↔ v = u := by
  have hsame : (Value.uuid v).same (.uuid u) = true ↔ v = u := beq_iff_eq
  have hother : (Value.uuid v).same (.text u.text) = false := rfl
  unfold variants Value.memberOf
  rw [List.any_cons, List.any_cons, List.any_nil, Bool.or_false, hother, Bool.or_false, hsame]

/-- The canonical text is no other spelling. -/
theorem not_isOtherSpelling_text (u : Uuid) : ¬IsOtherSpelling (.text u.text) (.uuid u) := by
  rintro ⟨s, v, hs, hv, -, hne⟩
  rw [← Value.text.inj hs, ← Value.uuid.inj hv] at hne
  exact hne rfl

/-- A text and an identifier are variants of each other, unless the text is another spelling of the
identifier. -/
theorem variant_text_symm_iff {s : String} {u : Uuid} :
    ((Value.uuid u).memberOf (variants (.text s)) = true ↔
        (Value.text s).memberOf (variants (.uuid u)) = true) ↔
      ¬(Uuid.ofText? s = some u ∧ s ≠ u.text) := by
  rw [uuid_variant_text_iff, text_variant_uuid_iff, not_and, not_ne_iff]
  refine ⟨Iff.mp, fun h => ⟨h, ?_⟩⟩
  rintro rfl
  exact Uuid.ofText?_text u

/-- Ids are variants of each other, unless one is another spelling of the other. -/
theorem variant_symm_iff {v w : Value} (hv : v.IsId) (hw : w.IsId) :
    (w.memberOf (variants v) = true ↔ v.memberOf (variants w) = true) ↔
      ¬(IsOtherSpelling v w ∨ IsOtherSpelling w v) := by
  have hmixed : ∀ s u, IsOtherSpelling (.text s) (.uuid u) ↔
      Uuid.ofText? s = some u ∧ s ≠ u.text := by
    intro s u
    constructor
    · rintro ⟨_, _, ⟨⟩, ⟨⟩, h⟩
      exact h
    · exact fun h => ⟨s, u, rfl, rfl, h⟩
  cases hv with
  | text s =>
      cases hw with
      | text t =>
          rw [text_variant_text_iff, text_variant_text_iff]
          exact iff_of_true eq_comm fun h =>
            h.elim not_isOtherSpelling_of_text not_isOtherSpelling_of_text
      | uuid u =>
          rw [variant_text_symm_iff, hmixed, or_iff_left not_isOtherSpelling_of_uuid]
  | uuid u =>
      cases hw with
      | text s =>
          rw [or_iff_right not_isOtherSpelling_of_uuid, hmixed, ← variant_text_symm_iff]
          exact iff_comm
      | uuid v =>
          rw [uuid_variant_uuid_iff, uuid_variant_uuid_iff]
          exact iff_of_true eq_comm fun h =>
            h.elim not_isOtherSpelling_of_uuid not_isOtherSpelling_of_uuid

end Identity

/-! ### Look-ups -/

namespace Context

/-- Whether a query has one source only, which matches, is not blank and is stored under an id, and
nothing else about the query stands in the way of a look-up. -/
structure Holds (x : Context) (s id : Value) : Prop where
  direct : x.Direct
  documents : x.criteria.documents = [s]
  admitted : Selector.admits x.criteria.selector s = true
  identity : s.field? x.criteria.identityKey = .ok (some id)
  filled : s.isBlank = false

theorem stored_holds (id : Value) :
    (stored id).Holds (.document [(.text Settings.standard.idField, id)]) id :=
  ⟨stored_direct id, rfl, rfl, rfl, rfl⟩

/-- The only source is found by an id just when what it is stored under is among the variants. -/
theorem find_of_holds {x : Context} {s v w : Value} (h : x.Holds s w) (hv : v.IsId)
    (hw : w.IsId) : (x.find v).outcome =
      if w.memberOf (Identity.variants v) then .ok (.one s) else .error (x.missing v) := by
  have hstores : x.criteria.stores (Identity.variants v) s =
      w.memberOf (Identity.variants v) := by
    unfold Criteria.stores Value.memberOf
    rw [h.admitted, h.identity, Bool.true_and]
    dsimp only
    rw [hw.eq_eq_same]
  rw [find_eq_answer h.direct hv.not_collection, hv.not_condition, Option.getD_none, h.documents,
    List.find?_cons, hstores]
  cases w.memberOf (Identity.variants v) with
  | true =>
      show (if s.isBlank = true then _ else _) = _
      rw [h.filled]
      rfl
  | false => rfl

end Context

namespace Identity

/-- Whether an id finds every source that is stored under another. -/
def Finds (id other : Value) : Prop :=
  ∀ (x : Context) (s : Value), x.Holds s other → (x.find id).outcome = .ok (.one s)

theorem finds_iff {v w : Value} (hv : v.IsId) (hw : w.IsId) :
    Finds v w ↔ w.memberOf (variants v) = true := by
  constructor
  · intro h
    have hfind := h _ _ (Context.stored_holds w)
    rw [Context.find_of_holds (Context.stored_holds w) hv hw] at hfind
    by_contra hnot
    rw [if_neg hnot] at hfind
    exact nomatch hfind
  · intro h x s hs
    rw [Context.find_of_holds hs hv hw, if_pos h]

/-- Of two ids, each a text or an identifier, one finds what is stored under the other just when the
other does so in return, unless one of them is another text of the other than the canonical one.
Finding is to have a variant in any case. -/
theorem finds_symm_iff {v w : Value} (hv : v.IsId) (hw : w.IsId) :
    (Finds v w ↔ w.memberOf (variants v) = true) ∧
    (Finds w v ↔ v.memberOf (variants w) = true) ∧
    ((Finds v w ↔ Finds w v) ↔ ¬(IsOtherSpelling v w ∨ IsOtherSpelling w v)) := by
  refine ⟨finds_iff hv hw, finds_iff hw hv, ?_⟩
  rw [finds_iff hv hw, finds_iff hw hv]
  exact variant_symm_iff hv hw

/-- The canonical text of an identifier and the identifier find each other. -/
theorem finds_symm_canonical :
    let u : Uuid := ⟨0x123456789abcdef0123456789abcdef0⟩
    u.text = "12345678-9abc-def0-1234-56789abcdef0" ∧
      Finds (.text u.text) (.uuid u) ∧ Finds (.uuid u) (.text u.text) := by
  intro u
  obtain ⟨hleft, -, hsymm⟩ := finds_symm_iff (.text u.text) (.uuid u)
  have hfinds : Finds (.text u.text) (.uuid u) :=
    hleft.mpr (uuid_variant_text_iff.mpr (Uuid.ofText?_text u))
  have hspelling : ¬(IsOtherSpelling (.text u.text) (.uuid u) ∨
      IsOtherSpelling (.uuid u) (.text u.text)) := by
    rintro (h | h)
    · exact not_isOtherSpelling_text u h
    · exact not_isOtherSpelling_of_uuid h
  exact ⟨by decide +kernel, hfinds, (hsymm.mpr hspelling).mp hfinds⟩

/-- With a digit in upper case, a text finds what is stored under its identifier, and what is stored
under the text is not found by the identifier. -/
theorem upper_case_not_found :
    let u : Uuid := ⟨10⟩
    let s : String := "00000000-0000-0000-0000-00000000000A"
    variants (.text s) = [.text s, .uuid u] ∧
      variants (.uuid u) = [.uuid u, .text "00000000-0000-0000-0000-00000000000a"] ∧
      ((Context.stored (.uuid u)).find (.text s)).outcome =
        .ok (.one (.document [(.text "_id", .uuid u)])) ∧
      ((Context.stored (.text s)).find (.uuid u)).outcome =
        .error (.notFound "Document not found" (.uuid u) .null) ∧
      ¬(Finds (.text s) (.uuid u) ↔ Finds (.uuid u) (.text s)) := by
  intro u s
  have hread : Uuid.ofText? s = some u := by decide +kernel
  have hcanonical : u.text = "00000000-0000-0000-0000-00000000000a" := by decide +kernel
  have htext : s ≠ u.text := by
    rw [hcanonical]
    decide
  have hfound : (Value.uuid u).memberOf (variants (.text s)) = true :=
    uuid_variant_text_iff.mpr hread
  have hmissed : ¬(Value.text s).memberOf (variants (.uuid u)) = true :=
    mt text_variant_uuid_iff.mp htext
  refine ⟨variants_text_of_some hread, ?_, ?_, ?_, ?_⟩
  · show [Value.uuid u, .text u.text] = _
    rw [hcanonical]
  · rw [Context.find_of_holds (Context.stored_holds _) (.text s) (.uuid u), if_pos hfound]
    rfl
  · rw [Context.find_of_holds (Context.stored_holds _) (.uuid u) (.text s), if_neg hmissed]
    rfl
  · rw [finds_iff (.text s) (.uuid u), finds_iff (.uuid u) (.text s)]
    exact fun h => hmissed (h.mp hfound)

end Identity
end RecordQuery
