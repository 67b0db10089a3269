import RecordQuery.Proofs.IdentitySymmetry

/-! # The spellings of an identifier

The case of its letters and its hyphens do not matter to what a text spells.  `Uuid.Respelled`
changes both character by character; what it never changes is `Uuid.bare`, the text in lower case
and without hyphens (`respelled_iff`).  A reader goes by the digits alone, also where there are
braces around them and a mark before these (`clean_enclose`), and a digit has one value in either
case.  So every spelling of the canonical text has the identifier for its second variant.

The identifier and the canonical text have the same two variants.  Each finds what is stored under
either, and a collection of any of them has these two candidates; `canonical_forms` says all of
this. -/

namespace RecordQuery
namespace Text

/-! ### Letter case -/

theorem toNat_toLower (c : Char) : c.toLower.toNat =
    if 65 ≤ c.toNat ∧ c.toNat ≤ 90 then c.toNat + 32 else c.toNat := by
  have hrange : (c.val ≥ 'A'.val ∧ c.val ≤ 'Z'.val) ↔ 65 ≤ c.toNat ∧ c.toNat ≤ 90 := by
    rw [ge_iff_le, UInt32.le_iff_toNat_le, UInt32.le_iff_toNat_le]
    rfl
  unfold Char.toLower
  split
  · rename_i h
    have hle : c.val.toNat ≤ 90 := (hrange.mp h).2
    have hsum : c.val.toNat + 32 < 2 ^ 32 := by omega
    rw [if_pos (hrange.mp h)]
    show (c.val + 32).toNat = c.val.toNat + 32
    rw [UInt32.toNat_add]
    exact Nat.mod_eq_of_lt hsum
  · rename_i h
    rw [if_neg (mt hrange.mpr h)]

/-- A digit has the same value in either case. -/
theorem hexValue?_toLower (c : Char) : hexValue? c.toLower = hexValue? c := by
  unfold hexValue?
  dsimp only
  rw [toNat_toLower]
  grind

theorem isHex_toLower (c : Char) : isHex c.toLower = isHex c := by
  unfold isHex
  rw [hexValue?_toLower]

theorem hexNumber_map_toLower (cs : List Char) :
    hexNumber (cs.map Char.toLower) = hexNumber cs := by
  unfold hexNumber
  rw [List.foldl_map]
  simp only [hexValue?_toLower]

/-- Of a text between two characters that are trimmed, the text remains. -/
theorem trim_between {p : Char → Bool} {first last : Char} {cs : List Char}
    (hfirst : p first = true) (hlast : p last = true) (h : ∀ c ∈ cs, p c = false) :
    (((first :: cs ++ [last]).dropWhile p).reverse.dropWhile p).reverse = cs := by
  have hreverse : ∀ c ∈ cs.reverse, p c = false := fun c hc => h c (List.mem_reverse.mp hc)
  cases cs with
  | nil => simp [hfirst, hlast]
  | cons c cs =>
      have hc : p c = false := h c List.mem_cons_self
      rw [List.cons_append, List.dropWhile_cons_of_pos hfirst, List.cons_append,
        List.dropWhile_cons_of_neg (by simp [hc]), ← List.cons_append, List.reverse_append,
        List.reverse_singleton, List.singleton_append, List.dropWhile_cons_of_pos hlast,
        dropWhile_eq_self hreverse, List.reverse_reverse]

end Text

namespace Uuid

open Text

/-! ### Respelling -/

variable {cs ds : List Char} {u : Uuid}

/-- Whether the second text is the first with letters in another case, and with hyphens put in and
taken out. -/
inductive Respelled : List Char → List Char → Prop
  | nil : Respelled [] []
  | recase {c d : Char} {cs ds : List Char} (hcase : c.toLower = d.toLower)
      (h : Respelled cs ds) : Respelled (c :: cs) (d :: ds)
  | putIn {cs ds : List Char} (h : Respelled cs ds) : Respelled cs ('-' :: ds)
  | takeOut {cs ds : List Char} (h : Respelled cs ds) : Respelled ('-' :: cs) ds

/-- A text in lower case and without hyphens. -/
def bare (cs : List Char) : List Char := (cs.filter (· != '-')).map Char.toLower

theorem bare_hyphen (cs : List Char) : bare ('-' :: cs) = bare cs := rfl

theorem bare_cons {c : Char} (h : c ≠ '-') (cs : List Char) :
    bare (c :: cs) = c.toLower :: bare cs := by
  unfold bare
  rw [List.filter_cons, if_pos (bne_iff_ne.mpr h), List.map_cons]

/-- Only the hyphen has the hyphen for its lower case. -/
theorem eq_hyphen_of_toLower {c : Char} (h : c.toLower = '-') : c = '-' := by
  have hn := toNat_toLower c
  rw [h, show '-'.toNat = 45 from rfl] at hn
  refine Char.toNat_inj.mp ?_
  rw [show '-'.toNat = 45 from rfl]
  split at hn <;> omega

theorem bare_eq_of_respelled (h : Respelled cs ds) : bare cs = bare ds := by
  induction h with
  | nil => rfl
  | @recase c d cs ds hcase _ ih =>
      by_cases hc : c = '-'
      · subst hc
        have hd : d = '-' := eq_hyphen_of_toLower hcase.symm
        rw [hd, bare_hyphen, bare_hyphen, ih]
      · have hd : d ≠ '-' := by
          rintro rfl
          exact hc (eq_hyphen_of_toLower hcase)
        rw [bare_cons hc, bare_cons hd, hcase, ih]
  | putIn _ ih => exact ih
  | takeOut _ ih => exact ih

theorem respelled_nil (h : bare ds = []) : Respelled [] ds := by
  induction ds with
  | nil => exact .nil
  | cons d ds ih =>
      by_cases hd : d = '-'
      · subst hd
        exact .putIn (ih h)
      · rw [bare_cons hd] at h
        cases h

theorem respelled_cons {c : Char} (ih : ∀ es, bare cs = bare es → Respelled cs es)
    (h : c.toLower :: bare cs = bare ds) : Respelled (c :: cs) ds := by
  induction ds with
  | nil => cases h
  | cons d ds ihd =>
      by_cases hd : d = '-'
      · subst hd
        exact .putIn (ihd h)
      · rw [bare_cons hd] at h
        obtain ⟨hcase, hrest⟩ := List.cons.inj h
        exact .recase hcase (ih ds hrest)

/-- Texts are spellings of each other when they agree in lower case and without hyphens. -/
theorem respelled_iff : Respelled cs ds ↔ bare cs = bare ds := by
  refine ⟨bare_eq_of_respelled, fun h => ?_⟩
  induction cs generalizing ds with
  | nil => exact respelled_nil h.symm
  | cons c cs ih =>
      by_cases hc : c = '-'
      · subst hc
        exact .takeOut (ih h)
      · rw [bare_cons hc] at h
        exact respelled_cons (fun es => ih) h

instance (cs ds : List Char) : Decidable (Respelled cs ds) := decidable_of_iff _ respelled_iff.symm

/-! ### Marks and braces -/

/-- A text with braces around it, if it is to have them, and then the mark before it. -/
def enclose (marked braced : Bool) (cs : List Char) : List Char :=
  let body := if braced then '\x7b' :: cs ++ ['\x7d'] else cs
  if marked then "urn:uuid:".toList ++ body else body

theorem removeMark_drop (mark : List Char) (skip : Nat) (cs : List Char) :
    removeMark mark skip cs = removeMark mark 0 (cs.drop skip) := by
  induction cs generalizing skip with
  | nil => cases skip <;> rfl
  | cons c cs ih =>
      cases skip with
      | zero => rfl
      | succ skip => exact ih skip

/-- A mark at the front is removed. -/
theorem removeMark_append {mark : List Char} (hne : mark ≠ []) (cs : List Char) :
    removeMark mark 0 (mark ++ cs) = removeMark mark 0 cs := by
  cases mark with
  | nil => exact absurd rfl hne
  | cons m ms =>
      have hprefix : (m :: ms).isPrefixOf (m :: (ms ++ cs)) = true :=
        List.isPrefixOf_iff_prefix.mpr (List.prefix_append (m :: ms) cs)
      rw [List.cons_append, removeMark, if_pos hprefix, List.length_cons, Nat.add_sub_cancel,
        removeMark_drop, List.drop_left]

/-- The marks before a text are removed, and nothing of a text without their characters. -/
theorem removeMarks_marked (marked : Bool) (hr : 'r' ∉ cs) (hcolon : ':' ∉ cs) :
    removeMark "uuid:".toList 0 (removeMark "urn:".toList 0
      (if marked then "urn:uuid:".toList ++ cs else cs)) = cs := by
  cases marked with
  | false =>
      rw [if_neg Bool.false_ne_true, removeMark_of_not_mem (c := 'r') (by decide) hr,
        removeMark_of_not_mem (c := ':') (by decide) hcolon]
  | true =>
      have hsplit : "urn:uuid:".toList = "urn:".toList ++ "uuid:".toList := by decide
      have hrest : 'r' ∉ "uuid:".toList ++ cs := by
        rw [List.mem_append, not_or]
        exact ⟨by decide, hr⟩
      rw [if_pos rfl, hsplit, List.append_assoc, removeMark_append (by decide),
        removeMark_of_not_mem (c := 'r') (by decide) hrest, removeMark_append (by decide),
        removeMark_of_not_mem (c := ':') (by decide) hcolon]

theorem trimBraces_braced (braced : Bool) (h : ∀ c ∈ cs, isBrace c = false) :
    trimBraces (if braced then '\x7b' :: cs ++ ['\x7d'] else cs) = cs := by
  unfold trimBraces
  cases braced with
  | false => exact trim_eq_self h
  | true => exact trim_between (by decide) (by decide) h

theorem not_mem_braced (braced : Bool) {c : Char} (hbrace : isBrace c = false) (h : c ∉ cs) :
    c ∉ if braced then '\x7b' :: cs ++ ['\x7d'] else cs := by
  cases braced with
  | false => exact h
  | true =>
      rw [if_pos rfl, List.mem_append, List.mem_cons, List.mem_singleton]
      rintro ((rfl | hc) | rfl)
      · exact absurd hbrace (by decide)
      · exact h hc
      · exact absurd hbrace (by decide)

/-- Of an enclosed text of digits and hyphens, the digits remain. -/
theorem clean_enclose (h : ∀ c ∈ cs, c = '-' ∨ isHex c = true) (marked braced : Bool) :
    clean (enclose marked braced cs) = cs.filter (· != '-') := by
  have hr : 'r' ∉ cs := not_mem_of_digits h (by decide) (by decide)
  have hcolon : ':' ∉ cs := not_mem_of_digits h (by decide) (by decide)
  unfold clean enclose
  dsimp only
  rw [removeMarks_marked marked (not_mem_braced braced (by decide) hr)
    (not_mem_braced braced (by decide) hcolon), trimBraces_braced braced (isBrace_of_digits h)]

/-! ### Spellings of an identifier -/

theorem bare_chars (u : Uuid) : bare u.chars = u.digits.map Char.toLower := by
  unfold bare
  rw [filter_chars]

/-- A spelling of the canonical text has digits and hyphens only. -/
theorem isHex_of_respelled (h : Respelled u.chars ds) : ∀ c ∈ ds, c = '-' ∨ isHex c = true := by
  intro c hc
  refine or_iff_not_imp_left.mpr fun hne => ?_
  have hbare : c.toLower ∈ bare ds :=
    List.mem_map_of_mem (List.mem_filter.mpr ⟨hc, bne_iff_ne.mpr hne⟩)
  rw [← respelled_iff.mp h, bare_chars] at hbare
  obtain ⟨d, hd, hdc⟩ := List.mem_map.mp hbare
  rw [← isHex_toLower, ← hdc, isHex_toLower]
  exact isHex_of_mem_digits hd

/-- Every spelling of the canonical text is read as the identifier. -/
theorem ofChars?_enclose (h : Respelled u.chars ds) (marked braced : Bool) :
    ofChars? (enclose marked braced ds) = some u := by
  have hdigits := isHex_of_respelled h
  have hbare : (ds.filter (· != '-')).map Char.toLower = u.digits.map Char.toLower :=
    (respelled_iff.mp h).symm.trans (bare_chars u)
  refine ofChars?_of_clean (clean_enclose hdigits marked braced)
    (fun _ => isHex_of_mem_filter hdigits) ?_ ?_
  · rw [← List.length_map Char.toLower, hbare, List.length_map]
    exact length_writeHex 32 _
  · rw [← hexNumber_map_toLower, hbare, hexNumber_map_toLower, hexNumber_digits]

/-- The identifier and its canonical text, as ids. -/
def ids (u : Uuid) : List Value := [.uuid u, .text u.text]

end Uuid

/-! ### Conditions on other fields -/

/-- The sources stored under one of some forms of an id that meet every condition on other fields
than the identity field. -/
def Criteria.storedUnder (c : Criteria) (forms : List Value) : List Value :=
  let others : Criteria := { c with selector := Dict.erase c.selector c.identityKey }
  c.documents.filter (others.stores forms)

/-- What a look-up of a single id leaves is stored under the forms that it expects. -/
theorem Criteria.selection_forIds_eq {c : Criteria} (hv : c.Valid) (hc : c.WellPosed)
    {id : Value} {forms : List Value}
    (hforms : ∀ v, (Condition.ofValue (Identity.expectation id)).holds v = forms.any v.eq) :
    (c.forIds id).selection = c.storedUnder forms := by
  refine List.filter_congr fun s hs => ?_
  have hf := hc.sources s hs
  rw [admits_forIds hv hc.names hf]
  unfold stores identityKey
  dsimp only
  rw [Selector.meets_text hf, Value.field?_text hf]
  cases s.carried? c.settings.idField with
  | none => rfl
  | some v => rw [Option.any_some, hforms]

/-! ### Ids in either form -/

namespace Identity

variable {u : Uuid} {v w : Value}

theorem isId_of_mem_ids (hv : v ∈ u.ids) : v.IsId := by
  rcases List.mem_pair.mp hv with rfl | rfl
  · exact .uuid u
  · exact .text u.text

theorem variants_canonical (u : Uuid) :
    variants (.text u.text) = [.text u.text, .uuid u] :=
  variants_text_of_some u.ofText?_text

/-- Either form of an identifier has both forms for variants. -/
theorem variants_perm_ids (hv : v ∈ u.ids) : (variants v).Perm u.ids := by
  rcases List.mem_pair.mp hv with rfl | rfl
  · exact .refl _
  · rw [variants_canonical]
    exact .swap _ _ _

theorem memberOf_variants (hv : v ∈ u.ids) (hw : w ∈ u.ids) : w.memberOf (variants v) = true :=
  List.any_eq_true.mpr ⟨w, (variants_perm_ids hv).mem_iff.mpr hw, Value.same_refl w⟩

theorem distinctItems_variants (hv : v ∈ u.ids) :
    Value.distinctItems (variants v) = variants v := by
  rcases List.mem_pair.mp hv with rfl | rfl
  · exact Value.distinctItems_pair rfl
  · rw [variants_canonical]
    exact Value.distinctItems_pair rfl

/-- The candidates of a collection of ids that are forms of one identifier are its forms, the first
id first. -/
theorem candidates_of_ids {ids : Value} {rest : List Value}
    (h : ids.collection? = some (v :: rest)) (hids : ∀ w ∈ v :: rest, w ∈ u.ids) :
    candidates ids = variants v := by
  have hv := hids v List.mem_cons_self
  have hrest : ∀ w ∈ rest.flatMap variants,
      w.memberOf (Value.distinctItems (variants v)) = true := by
    intro w hw
    obtain ⟨id, hid, hwid⟩ := List.mem_flatMap.mp hw
    have hidu := hids id (List.mem_cons_of_mem v hid)
    rw [distinctItems_variants hv]
    exact memberOf_variants hv ((variants_perm_ids hidu).mem_iff.mp hwid)
  unfold candidates each
  rw [h, Option.getD_some, List.flatMap_cons, Value.distinctItems_append hrest,
    distinctItems_variants hv]

/-- A look-up of either form gives the first source that is stored under one of the two. -/
theorem find_of_ids {x : Context} (hx : x.criteria.Valid) (hc : x.criteria.WellPosed)
    (hv : v ∈ u.ids) : (x.find v).outcome =
      (x.arrange (x.criteria.storedUnder u.ids) >>= fun docs => x.answer v docs.head?) := by
  have hid := isId_of_mem_ids hv
  have hforms : ∀ w, (Condition.ofValue (expectation v)).holds w = u.ids.any w.eq := by
    intro w
    rw [holds_expectation_single hid.not_collection, hid.not_condition, Option.getD_none]
    rw [Bool.eq_iff_iff, List.any_eq_true, List.any_eq_true]
    exact exists_congr fun z => and_congr_left' (variants_perm_ids hv).mem_iff
  rw [Context.find_single hid.not_collection, Context.narrowed_arranged hc,
    Criteria.selection_forIds_eq hx hc hforms]
  cases x.arrange (x.criteria.storedUnder u.ids) <;> rfl

/-- An identifier and its canonical text are the two variants of each other.  A look-up of either
finds what is stored under either; criteria for a collection made of them have these two
candidates; and every other spelling of the text has the identifier for its second variant. -/
theorem canonical_forms (u : Uuid) :
    variants (.uuid u) = [.uuid u, .text u.text] ∧
    variants (.text u.text) = [.text u.text, .uuid u] ∧
    (∀ v ∈ u.ids, (∀ w ∈ u.ids, Finds v w) ∧
      ∀ x : Context, x.criteria.Valid → x.criteria.WellPosed → (x.find v).outcome =
        (x.arrange (x.criteria.storedUnder u.ids) >>= fun docs => x.answer v docs.head?)) ∧
    (∀ ids items, ids.collection? = some items → items ≠ [] → (∀ v ∈ items, v ∈ u.ids) →
      ∃ candidates : List Value, candidates.Perm u.ids ∧ ∀ c : Criteria,
        Dict.get? (c.forIds ids).selector c.identityKey =
          some (Condition.oneOfValue candidates)) ∧
    ∀ ds, Uuid.Respelled u.chars ds → ∀ marked braced,
      let t := String.ofList (Uuid.enclose marked braced ds)
      variants (.text t) = [.text t, .uuid u] := by
  refine ⟨rfl, variants_canonical u, ?_, ?_, ?_⟩
  · intro v hv
    refine ⟨fun w hw => ?_, fun x hx hc => find_of_ids hx hc hv⟩
    exact (finds_iff (isId_of_mem_ids hv) (isId_of_mem_ids hw)).mpr (memberOf_variants hv hw)
  · intro ids items hids hne hitems
    cases items with
    | nil => exact absurd rfl hne
    | cons v rest =>
        have hcollection : isCollection ids = true := by
          unfold isCollection
          rw [hids]
          rfl
        refine ⟨variants v, variants_perm_ids (hitems v List.mem_cons_self), fun c => ?_⟩
        rw [← candidates_of_ids hids hitems, ← expectation_collection hcollection]
        exact Dict.get?_insert_self _ _ _
  · intro ds hds marked braced t
    refine variants_text_of_some ?_
    unfold Uuid.ofText?
    rw [String.toList_ofList]
    exact Uuid.ofChars?_enclose hds marked braced

/-- An identifier with a leading zero, asked for with its text, and a text of it with letters in
upper case, hyphens in other places, braces and the mark. -/
theorem canonical_forms_leading_zero :
    let u : Uuid := ⟨0x0123456789abcdef0123456789abcdef⟩
    let t : String := "urn:uuid:\x7b0123456789AB-cdef--0123456789abCDEF-\x7d"
    u.text = "01234567-89ab-cdef-0123-456789abcdef" ∧
      Finds (.text u.text) (.uuid u) ∧ Finds (.uuid u) (.text u.text) ∧
      (∃ candidates : List Value, candidates.Perm [.uuid u, .text u.text] ∧
        Dict.get? (Criteria.empty.forIds (.list [.text u.text, .uuid u, .text u.text])).selector
          (.text "_id") = some (Condition.oneOfValue candidates)) ∧
      variants (.text t) = [.text t, .uuid u] := by
  intro u t
  obtain ⟨-, -, hfinds, hcandidates, hspellings⟩ := canonical_forms u
  have huuid : Value.uuid u ∈ u.ids := List.mem_cons_self
  have htext : Value.text u.text ∈ u.ids := List.mem_cons_of_mem _ List.mem_cons_self
  obtain ⟨candidates, hperm, hget⟩ :=
    hcandidates (.list [.text u.text, .uuid u, .text u.text]) _ rfl (List.cons_ne_nil _ _) (by
      intro v hv
      simp only [List.mem_cons, List.not_mem_nil, or_false] at hv
      rcases hv with rfl | rfl | rfl <;> assumption)
  have hrespelled : Uuid.Respelled u.chars
      "0123456789AB-cdef--0123456789abCDEF-".toList := by decide +kernel
  refine ⟨by decide +kernel, (hfinds _ htext).1 _ huuid, (hfinds _ huuid).1 _ htext,
    ⟨candidates, hperm, hget Criteria.empty⟩, ?_⟩
  exact hspellings _ hrespelled true true

end Identity
end RecordQuery
