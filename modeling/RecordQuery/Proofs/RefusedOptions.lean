import Mathlib.Data.List.Perm.Basic
import RecordQuery.Proofs.Extrema
import RecordQuery.Proofs.PageNumber
import RecordQuery.Proofs.SortOutcomes
import RecordQuery.Proofs.StableSort

/-! # Refused options

A dictionary is refused as options just when it has a key that names no option or a value that does
not pass its check.  Whether the refusal tells that options are invalid (`ReportsInvalid`) hangs on
what runs before the checks: the unknown keys are sorted and joined, which fails in a way of its own
where one of them is no text, and the projection is walked through, which fails where it has no
elements.

Unknown keys that are texts are listed in the order of texts, so the refusal does not depend on the
order of the entries (`exists_listed`).  `Options.Refuses` says all this of a reading of
dictionaries, and `refusals_of_dict` of the readings of options and of hints. -/

namespace RecordQuery

/-- Whether a failure tells that options or hints are invalid. -/
def Fault.TellsInvalid (e : Fault) : Prop :=
  ∃ explanation option value, e = .invalidOptions explanation option value

/-- Whether a failure tells that two values share no order. -/
def Fault.TellsNoOrder (e : Fault) : Prop :=
  ∃ comparison left right, e = .notComparable comparison left right

theorem Fault.TellsNoOrder.not_tellsInvalid {e : Fault} (h : e.TellsNoOrder) : ¬e.TellsInvalid := by
  obtain ⟨comparison, left, right, rfl⟩ := h
  rintro ⟨_, _, _, heq⟩
  exact nomatch heq

/-- Whether a computation fails only by telling that options or hints are invalid. -/
def ReportsInvalid {α : Type} (x : Except Fault α) : Prop := ∀ e, x = .error e → e.TellsInvalid

theorem reportsInvalid_iff {α : Type} {x : Except Fault α} :
    ReportsInvalid x ↔ Ensures Fault.TellsInvalid (fun _ => True) x := by
  cases x with
  | error e => exact ⟨fun h => h e rfl, fun h e' he => Except.error.inj he ▸ h⟩
  | ok a => exact ⟨fun _ => trivial, fun _ => nofun⟩

namespace Value

/-! ### Comparisons that fail -/

theorem ensures_compareItems {c : Comparison} {vs : List Value}
    (h : ∀ v ∈ vs, ∀ w, Ensures Fault.TellsNoOrder (fun _ => True) (compare c v w))
    (ws : List Value) : Ensures Fault.TellsNoOrder (fun _ => True) (compareItems c vs ws) := by
  induction vs generalizing ws with
  | nil => trivial
  | cons v vs ih =>
      rw [List.forall_mem_cons] at h
      cases ws with
      | nil => trivial
      | cons w ws =>
          show Ensures _ _ (if _ then _ else _)
          split
          · exact ih h.2 ws
          · exact h.1 w

/-- A comparison fails only because two values share no order. -/
theorem ensures_compare (c : Comparison) (v w : Value) :
    Ensures Fault.TellsNoOrder (fun _ => True) (compare c v w) := by
  induction v using induction generalizing w with
  | list vs ih =>
      cases w with
      | list ws => exact ensures_compareItems ih ws
      | _ => exact ⟨_, _, _, rfl⟩
  | tuple vs ih =>
      cases w with
      | tuple ws => exact ensures_compareItems ih ws
      | _ => exact ⟨_, _, _, rfl⟩
  | bool b =>
      rw [compare]
      split
      · trivial
      · exact ⟨_, _, _, rfl⟩
  | number n =>
      rw [compare]
      split
      · trivial
      · exact ⟨_, _, _, rfl⟩
  | text s =>
      cases w with
      | text t => trivial
      | _ => exact ⟨_, _, _, rfl⟩
  | uuid u =>
      cases w with
      | uuid v => trivial
      | _ => exact ⟨_, _, _, rfl⟩
  | set frozen vs ih =>
      cases w with
      | set frozen' ws => trivial
      | _ => exact ⟨_, _, _, rfl⟩
  | _ => exact ⟨_, _, _, rfl⟩

theorem entriesOrNone_dict (d : Dict) : (dict d).entriesOrNone = .ok d := by
  cases d with
  | nil => rfl
  | cons e es => rfl

theorem memberOf_texts_iff {v : Value} {names : List String} :
    v.memberOf (names.map .text) = true ↔ v ∈ names.map .text := by
  unfold memberOf
  rw [List.any_eq_true]
  constructor
  · rintro ⟨_, hmem, hsame⟩
    obtain ⟨name, hname, rfl⟩ := List.mem_map.mp hmem
    rw [same_text_iff.mp (same_symm hsame)]
    exact List.mem_map_of_mem hname
  · intro hmem
    exact ⟨v, hmem, same_refl v⟩

end Value

namespace Options

variable {names : List String} {d : Dict} {explanation : String}

/-! ### Unknown keys -/

theorem mem_unknownKeys {key : Value} :
    key ∈ unknownKeys names d ↔ key ∈ Dict.keys d ∧ key ∉ names.map Value.text := by
  unfold unknownKeys
  rw [List.mem_filter, Bool.not_eq_true', ← Bool.not_eq_true, Value.memberOf_texts_iff]

theorem joinNames_texts (texts : List String) :
    joinNames (texts.map .text) = .ok (", ".intercalate texts) := by
  have hgo : ∀ index, joinNames.go index (texts.map .text) = .ok texts := by
    induction texts with
    | nil => exact fun _ => rfl
    | cons text texts ih =>
        intro index
        rw [List.map_cons, joinNames.go, ih]
        rfl
  rw [joinNames, hgo]
  rfl

/-- Names among which something is no text cannot be joined. -/
theorem joinNames_of_not_text {keys : List Value} (h : ∃ key ∈ keys, key.kind ≠ .text) :
    ∃ index kind, joinNames keys = .error (.nameNotText index kind) := by
  have hgo : ∀ start, ∃ index kind, joinNames.go start keys = .error (.nameNotText index kind) := by
    induction keys with
    | nil =>
        obtain ⟨_, hmem, -⟩ := h
        exact absurd hmem List.not_mem_nil
    | cons key keys ih =>
        intro start
        cases key with
        | text s =>
            have hrest : ∃ key ∈ keys, key.kind ≠ .text := by simpa [Value.kind] using h
            obtain ⟨index, kind, hrest⟩ := ih hrest (start + 1)
            refine ⟨index, kind, ?_⟩
            rw [joinNames.go, hrest]
            rfl
        | _ => exact ⟨start, _, rfl⟩
  obtain ⟨index, kind, hgo⟩ := hgo 0
  refine ⟨index, kind, ?_⟩
  rw [joinNames, hgo]
  rfl

theorem map_text_characters {keys : List Value} (h : ∀ key ∈ keys, key.kind = .text) :
    (keys.map Value.characters).map .text = keys := by
  rw [List.map_map]
  refine (List.map_congr_left fun key hkey => ?_).trans (List.map_id keys)
  obtain ⟨s, rfl⟩ := Value.kind_eq_text_iff.mp (h key hkey)
  rfl

/-- Texts can be listed in order. -/
theorem exists_ordered {keys : List Value} (h : ∀ key ∈ keys, key.kind = .text) :
    ∃ texts : List String, texts.Pairwise (· ≤ ·) ∧ (texts.map Value.text).Perm keys := by
  have hperm := List.mergeSort_perm keys (Sorting.byKey Value.characters)
  refine ⟨(keys.mergeSort (Sorting.byKey Value.characters)).map Value.characters,
    List.pairwise_map.mpr (Sorting.ascending_mergeSort keys), ?_⟩
  rw [map_text_characters fun key hkey => h key (hperm.mem_iff.mp hkey)]
  exact hperm

/-- Texts are sorted into the one list of them that is in order. -/
theorem sort_texts {keys : List Value} {texts : List String} (hordered : texts.Pairwise (· ≤ ·))
    (hperm : (texts.map Value.text).Perm keys) :
    Sorting.sort Value.lt keys = .ok (texts.map .text) := by
  have htexts : ∀ key ∈ keys, key.kind = .text := by
    intro key hkey
    obtain ⟨s, -, rfl⟩ := List.mem_map.mp (hperm.mem_iff.mpr hkey)
    rfl
  have hcompares : Sorting.Compares Value.characters Value.lt keys keys :=
    fun v hv w hw => Value.orderedBy_characters htexts v hv w hw .less
  rw [Sorting.sort_eq_mergeSort hcompares]
  have hsorted := List.mergeSort_perm keys (Sorting.byKey Value.characters)
  refine congrArg Except.ok (List.Perm.eq_of_pairwise ?_ (Sorting.ascending_mergeSort keys)
    (List.pairwise_map.mpr hordered) (hsorted.trans hperm.symm))
  intro v w hv hw hvw hwv
  obtain ⟨s, rfl⟩ := Value.kind_eq_text_iff.mp (htexts v (hsorted.mem_iff.mp hv))
  obtain ⟨t, -, rfl⟩ := List.mem_map.mp hw
  exact congrArg Value.text (le_antisymm hvw hwv)

/-! ### Refusals of unknown keys -/

theorem refuseUnknown_eq_ok_iff :
    refuseUnknown explanation names d = .ok () ↔ unknownKeys names d = [] := by
  unfold refuseUnknown
  cases unknownKeys names d with
  | nil => exact ⟨fun _ => rfl, fun _ => rfl⟩
  | cons key keys =>
      constructor
      · intro h
        obtain ⟨sorted, -, h⟩ := exists_of_bind_eq_ok h
        obtain ⟨text, -, h⟩ := exists_of_bind_eq_ok h
        exact nomatch h
      · intro h
        exact nomatch h

/-- Unknown keys that are texts are listed in order. -/
theorem refuseUnknown_texts {texts : List String} (hordered : texts.Pairwise (· ≤ ·))
    (hperm : (texts.map Value.text).Perm (unknownKeys names d)) (hne : unknownKeys names d ≠ []) :
    refuseUnknown explanation names d =
      .error (.invalidOptions explanation (.text (", ".intercalate texts)) .null) := by
  have hsort := sort_texts hordered hperm
  unfold refuseUnknown
  cases hunknown : unknownKeys names d with
  | nil => exact absurd hunknown hne
  | cons key keys =>
      rw [hunknown] at hsort
      simp only [hsort]
      show (joinNames (texts.map .text) >>= _) = _
      rw [joinNames_texts]
      rfl

/-- With an unknown key that is no text the refusal fails in a way of its own: the keys share no
order, or they cannot be joined. -/
theorem refuseUnknown_of_not_text (explanation : String)
    (h : ∃ key ∈ unknownKeys names d, key.kind ≠ .text) :
    ∃ e, refuseUnknown explanation names d = .error e ∧ ¬e.TellsInvalid := by
  have hcompare : ∀ v w, Ensures Fault.TellsNoOrder (fun _ => True) (Value.lt v w) :=
    Value.ensures_compare .less
  have hsort := Sorting.ensures_sort hcompare (unknownKeys names d)
  unfold refuseUnknown
  cases hunknown : unknownKeys names d with
  | nil =>
      obtain ⟨_, hmem, -⟩ := h
      exact absurd (hunknown ▸ hmem) List.not_mem_nil
  | cons key keys =>
      rw [hunknown] at hsort h
      cases hsorted : Sorting.sort Value.lt (key :: keys) with
      | error e =>
          rw [hsorted] at hsort
          simp only [hsorted]
          exact ⟨e, rfl, Fault.TellsNoOrder.not_tellsInvalid hsort⟩
      | ok sorted =>
          rw [hsorted] at hsort
          obtain ⟨bad, hbad, hkind⟩ := h
          obtain ⟨index, kind, hjoin⟩ := joinNames_of_not_text
            ⟨bad, (List.Perm.mem_iff hsort).mpr hbad, hkind⟩
          simp only [hsorted]
          refine ⟨.nameNotText index kind, ?_, ?_⟩
          · show (joinNames sorted >>= _) = _
            rw [hjoin]
            rfl
          · rintro ⟨_, _, _, heq⟩
            exact nomatch heq

/-! ### Refused dictionaries -/

/-- Whether a key of a dictionary is none of the given names. -/
def IsUnknown (names : List String) (d : Dict) (key : Value) : Prop :=
  key ∈ Dict.keys d ∧ key ∉ names.map Value.text

/-- What the reading of dictionaries refuses, where `valid` says whether the values under the names
pass and `convertible` whether they can be brought before the checks.  It refuses a dictionary with
an unknown key or a value that does not pass; the refusal tells so unless an unknown key is no text
or a value is not convertible; and unknown keys that are texts are listed in order, whatever the
order of the entries. -/
structure Refuses {α : Type} (explanation : String) (names : List String) (d : Dict)
    (valid convertible : Prop) (read : Dict → Except Fault α) : Prop where
  fails_iff : (∃ e, read d = .error e) ↔ (∃ key, IsUnknown names d key) ∨ ¬valid
  reports_iff : ReportsInvalid (read d) ↔ (∀ key, IsUnknown names d key → key.kind = .text) ∧
    ((∃ key, IsUnknown names d key) ∨ convertible)
  lists : (∃ key, IsUnknown names d key) → (∀ key, IsUnknown names d key → key.kind = .text) →
    ∃ texts : List String, texts.Pairwise (· ≤ ·) ∧
      (texts.map Value.text).Perm (unknownKeys names d) ∧
      ∀ d' : Dict, d'.Perm d → read d' =
        .error (.invalidOptions explanation (.text (", ".intercalate texts)) .null)

theorem unknownKeys_eq_nil_iff : unknownKeys names d = [] ↔ ¬∃ key, IsUnknown names d key := by
  rw [List.eq_nil_iff_forall_not_mem, not_exists]
  exact forall_congr' fun key => not_congr mem_unknownKeys

/-- Unknown keys that are texts are listed in order, whatever the order of the entries. -/
theorem exists_listed (explanation : String) (hunknown : ∃ key, IsUnknown names d key)
    (htexts : ∀ key, IsUnknown names d key → key.kind = .text) :
    ∃ texts : List String, texts.Pairwise (· ≤ ·) ∧
      (texts.map Value.text).Perm (unknownKeys names d) ∧
      ∀ d' : Dict, d'.Perm d → refuseUnknown explanation names d' =
        .error (.invalidOptions explanation (.text (", ".intercalate texts)) .null) := by
  obtain ⟨texts, hordered, hperm⟩ := exists_ordered fun key hkey =>
    htexts key (mem_unknownKeys.mp hkey)
  refine ⟨texts, hordered, hperm, fun d' hd => ?_⟩
  have hkeys : (unknownKeys names d').Perm (unknownKeys names d) := (hd.map _).filter _
  refine refuseUnknown_texts hordered (hperm.trans hkeys.symm) fun hnil => ?_
  rw [hnil] at hkeys
  exact unknownKeys_eq_nil_iff.mp (List.nil_perm.mp hkeys) hunknown

section Rest

variable {α : Type} {valid convertible : Prop} {rest : Dict → Except Fault α}

/-- With an unknown key the rest of a reading does not matter. -/
theorem refuses_of_unknown (hunknown : ∃ key, IsUnknown names d key) :
    Refuses explanation names d valid convertible
      fun d => refuseUnknown explanation names d >>= fun _ => rest d := by
  refine ⟨iff_of_true ?_ (.inl hunknown), ?_, fun _ htexts => ?_⟩
  · rw [exists_error_iff]
    rintro ⟨a, ha⟩
    obtain ⟨⟨⟩, hok, -⟩ := exists_of_bind_eq_ok ha
    exact unknownKeys_eq_nil_iff.mp (refuseUnknown_eq_ok_iff.mp hok) hunknown
  · rw [and_iff_left (.inl hunknown)]
    constructor
    · intro hreports key hkey
      by_contra hkind
      obtain ⟨e, he, htells⟩ := refuseUnknown_of_not_text explanation
        ⟨key, mem_unknownKeys.mpr hkey, hkind⟩
      refine htells (hreports e ?_)
      show refuseUnknown explanation names d >>= _ = _
      rw [he]
      rfl
    · intro htexts e he
      obtain ⟨texts, -, -, hrefused⟩ := exists_listed explanation hunknown htexts
      have he' : refuseUnknown explanation names d >>= (fun _ => rest d) = .error e := he
      rw [hrefused d (List.Perm.refl d)] at he'
      exact ⟨explanation, _, _, (Except.error.inj he').symm⟩
  · obtain ⟨texts, hordered, hperm, hrefused⟩ := exists_listed explanation hunknown htexts
    refine ⟨texts, hordered, hperm, fun d' hd => ?_⟩
    show refuseUnknown explanation names d' >>= _ = _
    rw [hrefused d' hd]
    rfl

/-- Reading that begins by refusing unknown keys refuses what the rest of it does not accept. -/
theorem refuses_of_rest (hvalid : (∃ a, rest d = .ok a) ↔ valid)
    (hconvertible : ReportsInvalid (rest d) ↔ convertible) :
    Refuses explanation names d valid convertible
      fun d => refuseUnknown explanation names d >>= fun _ => rest d := by
  by_cases hunknown : ∃ key, IsUnknown names d key
  · exact refuses_of_unknown hunknown
  · have hrest : refuseUnknown explanation names d >>= (fun _ => rest d) = rest d := by
      rw [refuseUnknown_eq_ok_iff.mpr (unknownKeys_eq_nil_iff.mpr hunknown)]
      rfl
    refine ⟨?_, ?_, fun h => absurd h hunknown⟩
    · rw [or_iff_right hunknown, exists_error_iff, ← hvalid]
      simp only [hrest]
    · simp only [hrest]
      rw [or_iff_right hunknown, and_iff_right fun key hkey => absurd ⟨key, hkey⟩ hunknown]
      exact hconvertible

end Rest

/-! ### Options -/

/-- Whether a value may be the ordering. -/
def IsOrdering (v : Value) : Prop := v = .null ∨ v.isArrangement = true

/-- Whether a value may be the projection: it counts as false, or it has elements. -/
def IsProjection (v : Value) : Prop := v.truthy = false ∨ ∃ items, v.items = .ok items

/-- Whether the values under the names of the options pass. -/
def Acceptable (d : Dict) : Prop :=
  (entry d "skip").IsCount 0 ∧ (entry d "limit").IsCount 1 ∧ IsOrdering (entry d "sort") ∧
    IsProjection (entry d "fields")

theorem isCount_iff {least : Int} {v : Value} : v.IsCount least ↔
    ∃ count, v = Value.ofCount count ∧ ∀ n, count = some n → least ≤ n := by
  constructor
  · rintro (rfl | ⟨n, rfl, hn⟩)
    · exact ⟨none, rfl, nofun⟩
    · exact ⟨some n, rfl, by simpa using hn⟩
  · rintro ⟨count, rfl, hleast⟩
    exact Value.isCount_ofCount hleast

theorem isOrdering_iff {v : Value} : IsOrdering v ↔ ∃ sort, v = Value.ofOrdering sort := by
  constructor
  · rintro (rfl | h)
    · exact ⟨none, rfl⟩
    · cases v with
      | arrangement a => exact ⟨some a, rfl⟩
      | _ => exact absurd h Bool.false_ne_true
  · rintro ⟨sort, rfl⟩
    cases sort with
    | none => exact .inl rfl
    | some a => exact .inr rfl

theorem isProjection_iff {v : Value} : IsProjection v ↔ ∃ items, v.itemsOrNone = .ok items := by
  unfold IsProjection Value.itemsOrNone
  cases v.truthy with
  | true => simp
  | false => simp

/-- What is read after unknown keys have been refused. -/
def readEntries (d : Dict) : Except Fault Options := do
  let fields ← (entry d "fields").itemsOrNone
  check (entry d "skip") (entry d "limit") (entry d "sort") (.tuple fields)

theorem ofValue_dict (d : Dict) : ofValue (.dict d) =
    refuseUnknown "Unrecognized query option" Options.names d >>= fun _ => readEntries d := by
  rw [ofValue, Value.entriesOrNone_dict]
  rfl

theorem exists_readEntries_iff (d : Dict) : (∃ o, readEntries d = .ok o) ↔ Acceptable d := by
  unfold Acceptable
  rw [isCount_iff, isCount_iff, isOrdering_iff, isProjection_iff]
  constructor
  · rintro ⟨o, h⟩
    obtain ⟨fields, hfields, h⟩ := exists_of_bind_eq_ok h
    obtain ⟨hskip, hlimit, hsort, -, hv⟩ := check_eq_ok_iff.mp h
    exact ⟨⟨o.skip, hskip, hv.skip_nonneg⟩, ⟨o.limit, hlimit, hv.limit_pos⟩, ⟨o.sort, hsort⟩,
      fields, hfields⟩
  · rintro ⟨⟨skip, hskip, hnonneg⟩, ⟨limit, hlimit, hpos⟩, ⟨sort, hsort⟩, fields, hfields⟩
    refine ⟨⟨skip, limit, sort, fields⟩, ?_⟩
    rw [readEntries, hfields]
    exact check_eq_ok_iff.mpr ⟨hskip, hlimit, hsort, rfl, hnonneg, hpos⟩

theorem ensures_checkCount (name explanation : String) (least : Int) (v : Value) :
    Ensures Fault.TellsInvalid (fun _ => True) (checkCount name explanation least v) := by
  unfold checkCount
  split
  · trivial
  · split
    · split
      · trivial
      · exact ⟨_, _, _, rfl⟩
    · exact ⟨_, _, _, rfl⟩

theorem ensures_checkSort (v : Value) :
    Ensures Fault.TellsInvalid (fun _ => True) (checkSort v) := by
  unfold checkSort
  split
  · trivial
  · trivial
  · exact ⟨_, _, _, rfl⟩

/-- The checks themselves only fail by telling that options are invalid. -/
theorem ensures_check (skip limit sort : Value) (fields : List Value) :
    Ensures Fault.TellsInvalid (fun _ => True) (check skip limit sort (.tuple fields)) := by
  refine (ensures_checkCount _ _ _ skip).bind fun _ _ => ?_
  refine (ensures_checkCount _ _ _ limit).bind fun _ _ => ?_
  refine (ensures_checkSort sort).bind fun _ _ => ?_
  trivial

theorem items_eq_error {v : Value} {e : Fault} (h : v.items = .error e) :
    e = .notIterable v.kind := by
  cases v with
  | text s => exact nomatch h
  | list items => exact nomatch h
  | tuple items => exact nomatch h
  | set frozen items => exact nomatch h
  | dict es => exact nomatch h
  | _ => exact (Except.error.inj h).symm

theorem reportsInvalid_readEntries_iff (d : Dict) :
    ReportsInvalid (readEntries d) ↔ IsProjection (entry d "fields") := by
  rw [isProjection_iff, reportsInvalid_iff]
  unfold readEntries Value.itemsOrNone
  split
  · cases hfields : (entry d "fields").items with
    | error e =>
        obtain rfl := items_eq_error hfields
        refine iff_of_false ?_ nofun
        rintro ⟨_, _, _, h⟩
        exact nomatch h
    | ok fields => exact iff_of_true (ensures_check _ _ _ fields) ⟨fields, rfl⟩
  · exact iff_of_true (ensures_check _ _ _ []) ⟨[], rfl⟩

end Options

namespace Extras

theorem ofValue_dict (d : Dict) : ofValue (.dict d) =
    Options.refuseUnknown "Unrecognized pagination extra" ["page"] d >>=
      fun _ => check (Options.entry d "page") := by
  rw [ofValue, Value.entriesOrNone_dict]
  rfl

/-- Whether a value may be the number of a page. -/
def IsPage (v : Value) : Prop := v = .null ∨ ∃ n, v = .int n

theorem exists_check_iff {v : Value} : (∃ e, check v = .ok e) ↔ IsPage v := by
  constructor
  · rintro ⟨⟨page⟩, h⟩
    obtain rfl := check_eq_ok_iff.mp h
    cases page with
    | none => exact .inl rfl
    | some n => exact .inr ⟨n, rfl⟩
  · rintro (rfl | ⟨n, rfl⟩)
    · exact ⟨⟨none⟩, rfl⟩
    · exact ⟨⟨some n⟩, rfl⟩

theorem ensures_check (v : Value) : Ensures Fault.TellsInvalid (fun _ => True) (check v) := by
  unfold check
  split
  · trivial
  · split
    · trivial
    · exact ⟨_, _, _, rfl⟩

end Extras

/-- Options are refused for an unknown key or a value that does not pass, and the refusal tells so
unless an unknown key is no text, or there is none and the projection has no elements; hints are
refused likewise, where nothing is converted. -/
theorem refusals_of_dict (d : Dict) :
    Options.Refuses "Unrecognized query option" Options.names d (Options.Acceptable d)
      (Options.IsProjection (Options.entry d "fields")) (fun d => Options.ofValue (.dict d)) ∧
    Options.Refuses "Unrecognized pagination extra" ["page"] d
      (Extras.IsPage (Options.entry d "page")) True (fun d => Extras.ofValue (.dict d)) := by
  constructor
  · simp only [Options.ofValue_dict]
    exact Options.refuses_of_rest (Options.exists_readEntries_iff d)
      (Options.reportsInvalid_readEntries_iff d)
  · simp only [Extras.ofValue_dict]
    exact Options.refuses_of_rest Extras.exists_check_iff
      (iff_true_intro (reportsInvalid_iff.mpr (Extras.ensures_check _)))

/-- Two misspelt names are listed in order in which order ever they are given. -/
theorem refusals_of_dict_misspelt :
    Options.ofValue (.dict [(.text "offset", .int 1), (.text "limt", .int 2)]) =
      .error (.invalidOptions "Unrecognized query option" (.text "limt, offset") .null) ∧
    Options.ofValue (.dict [(.text "limt", .int 2), (.text "offset", .int 1)]) =
      .error (.invalidOptions "Unrecognized query option" (.text "limt, offset") .null) := by
  have hkeys : ∀ key, Options.IsUnknown Options.names
      [(.text "offset", .int 1), (.text "limt", .int 2)] key →
        key ∈ ["offset", "limt"].map Value.text := fun key hkey => hkey.1
  obtain ⟨texts, hordered, hperm, hread⟩ :=
    (refusals_of_dict [(.text "offset", .int 1), (.text "limt", .int 2)]).1.lists
      ⟨.text "offset", List.mem_cons_self, by simp [Options.names]⟩ fun key hkey => by
        obtain ⟨s, -, rfl⟩ := List.mem_map.mp (hkeys key hkey)
        rfl
  have hsame : texts.Perm ["offset", "limt"] :=
    (List.map_perm_map_iff fun _ _ => Value.text.inj).mp hperm
  obtain rfl : texts = ["limt", "offset"] :=
    (hsame.trans (List.Perm.swap _ _ _)).eq_of_pairwise' hordered (by decide)
  exact ⟨hread _ (List.Perm.refl _), hread _ (List.Perm.swap _ _ _)⟩

/-- An unknown key that is no text is not told to be invalid, and nor is a projection without
elements. -/
theorem refusals_misreported :
    Options.ofValue (.dict [(.int 1, .int 2)]) = .error (.nameNotText 0 .int) ∧
    Options.ofValue (.dict [(.text "fields", .int 5)]) = .error (.notIterable .int) ∧
    Extras.ofValue (.dict [(.int 1, .int 2)]) = .error (.nameNotText 0 .int) ∧
    (¬∀ d, ReportsInvalid (Options.ofValue (.dict d))) ∧
    ¬∀ d, ReportsInvalid (Extras.ofValue (.dict d)) := by
  have hkey : Options.ofValue (.dict [(.int 1, .int 2)]) = .error (.nameNotText 0 .int) := by
    with_unfolding_all rfl
  have hhint : Extras.ofValue (.dict [(.int 1, .int 2)]) = .error (.nameNotText 0 .int) := by
    with_unfolding_all rfl
  refine ⟨hkey, by with_unfolding_all rfl, hhint, fun h => ?_, fun h => ?_⟩
  · obtain ⟨_, _, _, heq⟩ := h _ _ hkey
    exact nomatch heq
  · obtain ⟨_, _, _, heq⟩ := h _ _ hhint
    exact nomatch heq

end RecordQuery
