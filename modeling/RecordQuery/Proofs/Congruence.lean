import Mathlib.Data.List.Forall2
import RecordQuery.Proofs.Matching

/-! # Queries that are equal up to equality of values

Equal values answer alike wherever a query looks at them.  Equality itself does not tell them apart
(`eq_congr`), nor do a condition (`holds_congr`) and a field, plain or dotted (`carried?_congr`); so
a source may be replaced by an equal document and a selector by an equal one, in whatever order its
entries stand (`admits_congr`).  The main statement, `equal_queries_agree`, says this of queries:
they match at the same positions.

Only look-up in a dictionary depends on its keys being distinct, so `wellKeyed` is asked of the
documents and of the selectors. -/

namespace RecordQuery

/-! ### Equality of values -/

theorem Number.isNaN_eq (n : Number) : n.isNaN = n.identity.position?.isNone := by
  cases n with
  | int n => rfl
  | float x => cases x <;> rfl

namespace Value

/-- The number of a value, which is a NaN when the value is. -/
theorem isNaN_of_number? {v : Value} {n : Number} (h : v.number? = some n) :
    v.isNaN = n.isNaN := by
  cases v with
  | bool b => cases h; rfl
  | number m => cases h; rfl
  | _ => exact nomatch h

theorem isNaN_of_number?_none {v : Value} (h : v.number? = none) : v.isNaN = false := by
  cases v with
  | number m => exact nomatch h
  | _ => rfl

theorem isNaN_congr {v w : Value} (h : v.same w = true) : v.isNaN = w.isNaN := by
  cases hv : v.number? with
  | some m =>
      obtain ⟨n, hw, hmn⟩ := number?_of_same hv h
      rw [isNaN_of_number? hv, isNaN_of_number? hw, Number.isNaN_eq, Number.isNaN_eq, hmn]
  | none =>
      cases hw : w.number? with
      | none => rw [isNaN_of_number?_none hv, isNaN_of_number?_none hw]
      | some n =>
          obtain ⟨m, hv', -⟩ := number?_of_same hw (same_symm h)
          rw [hv] at hv'
          simp at hv'

theorem same_congr {v v' w w' : Value} (hv : v.same v' = true) (hw : w.same w' = true) :
    v.same w = v'.same w' := by
  rw [Bool.eq_iff_iff]
  constructor
  · intro h
    exact same_trans (same_symm hv) (same_trans h hw)
  · intro h
    exact same_trans hv (same_trans h (same_symm hw))

theorem eq_congr {v v' w w' : Value} (hv : v.same v' = true) (hw : w.same w' = true) :
    v.eq w = v'.eq w' := by
  unfold eq
  rw [isNaN_congr hv, same_congr hv hw]

theorem covers_of_sameItems {xs ys : List Value} (h : sameItems xs ys = true) :
    Covers (fun x y => x.same y = true) xs ys := by
  induction xs generalizing ys with
  | nil =>
      cases ys with
      | nil => exact ⟨by simp, by simp⟩
      | cons y ys => exact absurd h Bool.false_ne_true
  | cons x xs ih =>
      cases ys with
      | nil => exact absurd h Bool.false_ne_true
      | cons y ys =>
          have h := Bool.and_eq_true_iff.mp h
          have c := ih h.2
          constructor
          · rw [List.forall_mem_cons]
            refine ⟨⟨y, by simp, h.1⟩, fun z hz => ?_⟩
            obtain ⟨w, hw, hzw⟩ := c.left z hz
            exact ⟨w, List.mem_cons_of_mem _ hw, hzw⟩
          · rw [List.forall_mem_cons]
            refine ⟨⟨x, by simp, h.1⟩, fun w hw => ?_⟩
            obtain ⟨z, hz, hzw⟩ := c.right w hw
            exact ⟨z, List.mem_cons_of_mem _ hz, hzw⟩

/-! ### Collections and conditions -/

/-- Candidates that are the same up to order and repetition. -/
abbrev SameCandidates : Option (List Value) → Option (List Value) → Prop :=
  Option.Rel (Covers fun x y => x.same y = true)

theorem collection?_of_number? {v : Value} {n : Number} (h : v.number? = some n) :
    v.collection? = none := by
  cases v with
  | bool b => rfl
  | number m => rfl
  | _ => exact nomatch h

theorem collection?_congr {v w : Value} (h : v.same w = true) :
    SameCandidates v.collection? w.collection? := by
  cases v with
  | null => obtain rfl := same_null_iff.mp h; exact .none
  | bool b =>
      obtain ⟨n, hw, -⟩ := same_bool_iff.mp h
      rw [collection?_of_number? hw]
      exact .none
  | number m =>
      obtain ⟨n, hw, -⟩ := same_number_iff.mp h
      rw [collection?_of_number? hw]
      exact .none
  | text s => obtain rfl := same_text_iff.mp h; exact .none
  | uuid u => obtain rfl := same_uuid_iff.mp h; exact .none
  | list xs =>
      obtain ⟨ys, rfl, hs⟩ := same_list_iff.mp h
      exact .some (covers_of_sameItems hs)
  | tuple xs =>
      obtain ⟨ys, rfl, hs⟩ := same_tuple_iff.mp h
      exact .some (covers_of_sameItems hs)
  | dict es => obtain ⟨fs, rfl, -⟩ := same_dict_iff.mp h; exact .none
  | set frozen xs =>
      obtain ⟨other, ys, rfl, hc⟩ := same_set_iff.mp h
      exact .some hc
  | arrangement a => obtain ⟨b, rfl, -⟩ := same_arrangement_iff.mp h; exact .none
  | document es => obtain ⟨fs, rfl, -⟩ := same_document_iff.mp h; exact .none
  | record i n es => obtain ⟨m, fs, rfl⟩ := same_record_iff.mp h; exact .none

end Value

/-- A dictionary that is the same as one of a single entry has a single entry too. -/
theorem Dict.eq_singleton_of_covers {e : Value × Value} {d : Dict} (hd : Distinct d)
    (h : Covers Value.SameEntry [e] d) : ∃ f, d = [f] ∧ Value.SameEntry e f := by
  have hkey : ∀ f ∈ d, Value.SameEntry e f := by
    intro f hf
    obtain ⟨x, hx, hxf⟩ := h.right f hf
    rw [List.mem_singleton] at hx
    exact hx ▸ hxf
  match d, hd, hkey with
  | [], _, _ =>
      obtain ⟨f, hf, -⟩ := h.left e (by simp)
      simp at hf
  | [f], _, hkey => exact ⟨f, rfl, hkey f (by simp)⟩
  | f :: g :: d, hd, hkey =>
      have hfg := (List.pairwise_cons.mp hd).1 g (by simp)
      have := Value.same_trans (Value.same_symm (hkey f (by simp)).1) (hkey g (by simp)).1
      rw [hfg] at this
      exact absurd this Bool.false_ne_true

namespace Condition

theorem candidates?_eq_some_iff {v : Value} {cs : List Value} :
    candidates? v = some cs ↔
      ∃ e, v = .dict [e] ∧ membershipKey.same e.1 = true ∧ e.2.collection? = some cs := by
  constructor
  · intro h
    unfold candidates? at h
    split at h
    · rename_i key c
      split at h
      · rename_i hk
        exact ⟨(key, c), rfl, hk, h⟩
      · simp at h
    · simp at h
  · rintro ⟨⟨key, c⟩, rfl, hk, hc⟩
    show (if membershipKey.same key then c.collection? else none) = some cs
    rw [if_pos hk, hc]

theorem exists_candidates? {v w : Value} (hw : w.wellKeyed = true) (h : v.same w = true)
    {cs : List Value} (hc : candidates? v = some cs) :
    ∃ ds, candidates? w = some ds ∧ Covers (fun x y => x.same y = true) cs ds := by
  obtain ⟨e, rfl, hk, he⟩ := candidates?_eq_some_iff.mp hc
  obtain ⟨fs, rfl, hcov⟩ := Value.same_dict_iff.mp h
  obtain ⟨f, rfl, hef⟩ := Dict.eq_singleton_of_covers (Value.wellKeyed_dict_iff.mp hw).1 hcov
  have hrel := Value.collection?_congr hef.2
  rw [he] at hrel
  generalize hf : f.2.collection? = ds at hrel
  cases hrel with
  | some hds =>
      exact ⟨_, candidates?_eq_some_iff.mpr ⟨f, rfl, Value.same_trans hk hef.1, hf⟩, hds⟩

theorem candidates?_congr {v w : Value} (hv : v.wellKeyed = true) (hw : w.wellKeyed = true)
    (h : v.same w = true) : Value.SameCandidates (candidates? v) (candidates? w) := by
  cases hc : candidates? v with
  | some cs =>
      obtain ⟨ds, hd, hcd⟩ := exists_candidates? hw h hc
      rw [hd]
      exact .some hcd
  | none =>
      cases hd : candidates? w with
      | none => exact .none
      | some ds =>
          obtain ⟨cs, hc', -⟩ := exists_candidates? hv (Value.same_symm h) hd
          rw [hc] at hc'
          simp at hc'

theorem any_eq_congr {v w : Value} (hvw : v.same w = true) {cs ds : List Value}
    (h : Covers (fun x y => x.same y = true) cs ds) : cs.any v.eq = ds.any w.eq := by
  rw [Bool.eq_iff_iff, List.any_eq_true, List.any_eq_true]
  constructor
  · rintro ⟨c, hc, hvc⟩
    obtain ⟨d, hd, hcd⟩ := h.left c hc
    exact ⟨d, hd, by rw [← Value.eq_congr hvw hcd, hvc]⟩
  · rintro ⟨d, hd, hwd⟩
    obtain ⟨c, hc, hcd⟩ := h.right d hd
    exact ⟨c, hc, by rw [Value.eq_congr hvw hcd, hwd]⟩

/-- Equal values meet equal conditions alike. -/
theorem holds_congr {e f v w : Value} (he : e.wellKeyed = true) (hf : f.wellKeyed = true)
    (hef : e.same f = true) (hvw : v.same w = true) :
    (ofValue e).holds v = (ofValue f).holds w := by
  have hrel := candidates?_congr he hf hef
  unfold ofValue
  generalize candidates? e = cs at hrel ⊢
  generalize candidates? f = ds at hrel ⊢
  cases hrel with
  | none => exact Value.eq_congr hvw hef
  | some hcd => exact any_eq_congr hvw hcd

end Condition

/-! ### Fields -/

namespace Path

theorem follow_cons {v : Value} (hv : ∀ es, v ≠ .dict es) (segment : String)
    (rest : List String) : follow v (segment :: rest) = none := by
  cases v with
  | dict es => exact absurd rfl (hv es)
  | _ => rfl

theorem follow_dict_cons (es : Dict) (segment : String) (rest : List String) :
    follow (.dict es) (segment :: rest) =
      (Dict.get? es (.text segment)).bind fun v => follow v rest := rfl

theorem follow_congr {v w : Value} (hv : v.wellKeyed = true) (hw : w.wellKeyed = true)
    (h : v.same w = true) (segments : List String) :
    SameOption (follow v segments) (follow w segments) := by
  induction segments generalizing v w with
  | nil => exact .some h
  | cons segment rest ih =>
      by_cases hd : ∃ es, v = .dict es
      · obtain ⟨es, rfl⟩ := hd
        obtain ⟨fs, rfl, hc⟩ := Value.same_dict_iff.mp h
        rw [follow_dict_cons, follow_dict_cons]
        have hrel := Dict.get?_congr (Value.wellKeyed_dict_iff.mp hv).1
          (Value.wellKeyed_dict_iff.mp hw).1 hc (Value.same_refl (.text segment))
        generalize hx : Dict.get? es (.text segment) = x at hrel ⊢
        generalize hy : Dict.get? fs (.text segment) = y at hrel ⊢
        cases hrel with
        | none => exact .none
        | some hxy =>
            exact ih (Value.wellKeyed_get? hv hx) (Value.wellKeyed_get? hw hy) hxy
      · have hv' : ∀ es, v ≠ .dict es := fun es he => hd ⟨es, he⟩
        have hw' : ∀ es, w ≠ .dict es := by
          rintro es rfl
          obtain ⟨fs, rfl, -⟩ := Value.same_dict_iff.mp (Value.same_symm h)
          exact hv' fs rfl
        rw [follow_cons hv', follow_cons hw']
        exact .none

end Path

namespace Value

/-- Whether one source stands for another: an equal document does, and a source for itself. -/
def EqualSource (s t : Value) : Prop :=
  s.hasFields = true ∧ s = t ∨ ∃ es fs, s = .document es ∧ t = .document fs ∧
    s.wellKeyed = true ∧ t.wellKeyed = true ∧ s.eq t = true

theorem EqualSource.hasFields {s t : Value} (h : EqualSource s t) :
    s.hasFields = true ∧ t.hasFields = true := by
  obtain ⟨hs, rfl⟩ | ⟨es, fs, rfl, rfl, -⟩ := h
  · exact ⟨hs, hs⟩
  · exact ⟨rfl, rfl⟩

/-- Equal documents carry the same fields. -/
theorem carried?_congr {s t : Value} (h : EqualSource s t) (name : String) :
    SameOption (s.carried? name) (t.carried? name) := by
  obtain ⟨-, rfl⟩ | ⟨es, fs, rfl, rfl, hes, hfs, h⟩ := h
  · cases s.carried? name with
    | none => exact .none
    | some v => exact .some (same_refl v)
  · rw [wellKeyed_document] at hes hfs
    obtain ⟨gs, hgs, hc⟩ := same_document_iff.mp (Bool.and_eq_true_iff.mp h).2
    cases hgs
    have hrel := Dict.get?_congr (wellKeyed_dict_iff.mp hes).1 (wellKeyed_dict_iff.mp hfs).1 hc
      (same_refl (.text name))
    rw [carried?_document, carried?_document]
    generalize Dict.get? es (.text name) = x at hrel ⊢
    generalize Dict.get? fs (.text name) = y at hrel ⊢
    cases hrel with
    | none => exact Path.follow_congr hes hfs (same_dict_iff.mpr ⟨fs, rfl, hc⟩) _
    | some hxy => exact .some hxy

end Value

/-! ### Selectors -/

namespace Selector

theorem named_of_covers {s t : Dict} (h : Covers Value.SameEntry s t) (hs : Named s) :
    Named t := by
  intro f hf
  obtain ⟨e, he, hef⟩ := h.right f hf
  obtain ⟨name, hname⟩ := hs e he
  rw [Value.SameEntry, hname] at hef
  exact ⟨name, Value.same_text_iff.mp hef.1⟩

theorem meets_congr {s t : Value} (hst : Value.EqualSource s t) {name e f : Value}
    (hn : ∃ text, name = .text text) (he : e.wellKeyed = true) (hf : f.wellKeyed = true)
    (hef : e.same f = true) : meets s name e = meets t name f := by
  obtain ⟨text, rfl⟩ := hn
  rw [meets_text hst.hasFields.1, meets_text hst.hasFields.2]
  have hrel := Value.carried?_congr hst text
  generalize s.carried? text = x at hrel ⊢
  generalize t.carried? text = y at hrel ⊢
  cases hrel with
  | none => rfl
  | some hxy => exact Condition.holds_congr he hf hef hxy

/-- Equal selectors admit the same of equal sources. -/
theorem admits_congr {p q : Dict} (hp : (Value.dict p).wellKeyed = true)
    (hq : (Value.dict q).wellKeyed = true) (hn : Named p) (hpq : Covers Value.SameEntry p q)
    {s t : Value} (hst : Value.EqualSource s t) : admits p s = admits q t := by
  have hn' := named_of_covers hpq hn
  rw [admits_eq_all hst.hasFields.1 hn, admits_eq_all hst.hasFields.2 hn', Bool.eq_iff_iff,
    List.all_eq_true, List.all_eq_true]
  have key : ∀ e ∈ p, ∀ f ∈ q, Value.SameEntry e f → meets s e.1 e.2 = meets t f.1 f.2 := by
    intro e he f hf hef
    obtain ⟨text, htext⟩ := hn e he
    have hf1 : f.1 = e.1 := by
      rw [Value.SameEntry, htext] at hef
      rw [htext]
      exact Value.same_text_iff.mp hef.1
    rw [hf1]
    exact meets_congr hst ⟨text, htext⟩ ((Value.wellKeyed_dict_iff.mp hp).2 e he).2
      ((Value.wellKeyed_dict_iff.mp hq).2 f hf).2 hef.2
  constructor
  · intro h f hf
    obtain ⟨e, he, hef⟩ := hpq.right f hf
    rw [← key e he f hf hef]
    exact h e he
  · intro h e he
    obtain ⟨f, hf, hef⟩ := hpq.left e he
    rw [key e he f hf hef]
    exact h f hf

end Selector
end RecordQuery
