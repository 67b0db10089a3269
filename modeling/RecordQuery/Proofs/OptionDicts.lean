import RecordQuery.Proofs.RefusedOptions

/-! # Options as dictionaries

Options are shown as a dictionary with an entry for each option that is set, and they are read from
dictionaries.  Showing leaves out what is null or has no elements; reading takes what is left out
for null.  So reading what is shown gives the options back (`Valid.ofValue_toDict`), and no count is
lost for being zero or negative.

A dictionary is accepted just when its entries are those of valid options
(`ofValue_dict_eq_ok_iff`), and what is shown of these options are the entries that carry
information (`Name.Informs`).  The main statement is `options_read_back`. -/

namespace RecordQuery

namespace Dict

/-! ### Entries of what is set -/

/-- The entries of those names that have a value, in the order of the names. -/
def listing {ι : Type} (text : ι → String) (value? : ι → Option Value) (names : List ι) : Dict :=
  names.filterMap fun name => (value? name).map fun v => (.text (text name), v)

variable {ι : Type} {text : ι → String} {value? : ι → Option Value} {names : List ι} {name : ι}

theorem listing_cons_none (h : value? name = none) (names : List ι) :
    listing text value? (name :: names) = listing text value? names :=
  List.filterMap_cons_none (by rw [h, Option.map_none])

theorem listing_cons_some {v : Value} (h : value? name = some v) (names : List ι) :
    listing text value? (name :: names) = (.text (text name), v) :: listing text value? names :=
  List.filterMap_cons_some (by rw [h, Option.map_some])

/-- A name gives its value where it is among the names. -/
theorem get?_listing [DecidableEq ι] (hinj : Function.Injective text) (name : ι) :
    get? (listing text value? names) (.text (text name)) =
      if name ∈ names then value? name else none := by
  induction names with
  | nil => rfl
  | cons first names ih =>
      by_cases hname : name = first
      · subst hname
        rw [if_pos List.mem_cons_self]
        cases hv : value? name with
        | none =>
            rw [listing_cons_none hv, ih, hv, ite_self]
        | some v =>
            rw [listing_cons_some hv, get?_cons, if_pos (Value.same_refl _)]
      · have hkey : ¬(Value.text (text name)).same (.text (text first)) = true := fun h =>
          hname (hinj (Value.text.inj (Value.same_text_iff.mp h)).symm)
        have hrest : get? (listing text value? (first :: names)) (.text (text name)) =
            get? (listing text value? names) (.text (text name)) := by
          cases hv : value? first with
          | none => rw [listing_cons_none hv]
          | some v => rw [listing_cons_some hv, get?_cons, if_neg hkey]
        rw [hrest, ih]
        simp only [List.mem_cons, hname, false_or]

theorem mem_keys_listing {key : Value} : key ∈ keys (listing text value? names) ↔
    ∃ name ∈ names, key = .text (text name) ∧ (value? name).isSome = true := by
  unfold keys listing
  rw [List.mem_map]
  constructor
  · rintro ⟨e, he, rfl⟩
    obtain ⟨name, hname, he⟩ := List.mem_filterMap.mp he
    obtain ⟨v, hv, rfl⟩ := Option.map_eq_some_iff.mp he
    exact ⟨name, hname, rfl, by rw [hv]; rfl⟩
  · rintro ⟨name, hname, rfl, hsome⟩
    obtain ⟨v, hv⟩ := Option.isSome_iff_exists.mp hsome
    exact ⟨(.text (text name), v), List.mem_filterMap.mpr ⟨name, hname, by rw [hv]; rfl⟩, rfl⟩

end Dict

namespace Value

/-- What counts as false has no elements. -/
theorem eq_nil_of_items {v : Value} {items : List Value} (hv : v.truthy = false)
    (h : v.items = .ok items) : items = [] := by
  cases v with
  | text s =>
      have hs : s.isEmpty = true := by simpa [truthy] using hv
      rw [String.isEmpty_iff.mp hs] at h
      exact (Except.ok.inj h).symm
  | list xs | tuple xs | set frozen xs =>
      have hxs : xs.isEmpty = true := by simpa [truthy] using hv
      rw [← Except.ok.inj h, List.isEmpty_iff.mp hxs]
  | dict es =>
      have hes : es.isEmpty = true := by simpa [truthy] using hv
      rw [← Except.ok.inj h, List.isEmpty_iff.mp hes]
      rfl
  | _ => exact nomatch h

/-- Whether a value has at least one element. -/
def HasElements (v : Value) : Prop := ∃ items, v.items = .ok items ∧ items ≠ []

theorem hasElements_iff {v : Value} {items : List Value} (h : v.itemsOrNone = .ok items) :
    v.HasElements ↔ items ≠ [] := by
  unfold itemsOrNone at h
  cases hv : v.truthy with
  | true =>
      rw [hv, if_pos rfl] at h
      exact ⟨fun ⟨_, h', hne⟩ => Except.ok.inj (h.symm.trans h') ▸ hne, fun hne => ⟨items, h, hne⟩⟩
  | false =>
      rw [hv, if_neg Bool.false_ne_true] at h
      refine iff_of_false ?_ (not_not.mpr (Except.ok.inj h).symm)
      rintro ⟨_, h', hne⟩
      exact hne (eq_nil_of_items hv h')

end Value

namespace Options

/-! ### What is shown -/

namespace Name

/-- The text that names an option in a dictionary. -/
def text : Name → String
  | .skip => "skip"
  | .limit => "limit"
  | .sort => "sort"
  | .fields => "fields"

/-- The names of the options, in the order in which they are shown. -/
def all : List Name := [.skip, .limit, .sort, .fields]

theorem text_injective : Function.Injective text := by
  intro m n h
  cases m <;> cases n <;> simp_all [text]

theorem mem_all (name : Name) : name ∈ all := by
  cases name <;> decide

/-- Whether a value given for an option carries information: it is not null or, for the projection,
it has at least one element. -/
def Informs : Name → Value → Prop
  | .fields, v => v.HasElements
  | _, v => v ≠ .null

end Name

/-- What is shown of an option, nothing when it is not set. -/
def shown? (o : Options) : Name → Option Value
  | .skip => o.skip.map .int
  | .limit => o.limit.map .int
  | .sort => o.sort.map .arrangement
  | .fields => if o.fields.isEmpty then none else some (.list o.fields)

theorem toDict_eq (o : Options) : o.toDict = Dict.listing Name.text o.shown? Name.all := by
  obtain ⟨skip, limit, sort, fields⟩ := o
  cases skip <;> cases limit <;> cases sort <;> cases fields <;> rfl

theorem entry_toDict (o : Options) (name : Name) :
    entry o.toDict name.text = (o.shown? name).getD .null := by
  rw [entry, toDict_eq, Dict.get?_listing Name.text_injective, if_pos name.mem_all]

theorem mem_keys_toDict {o : Options} {key : Value} : key ∈ Dict.keys o.toDict ↔
    ∃ name : Name, key = .text name.text ∧ (o.shown? name).isSome = true := by
  rw [toDict_eq, Dict.mem_keys_listing]
  exact exists_congr fun name => and_iff_right name.mem_all

theorem unknownKeys_toDict (o : Options) : unknownKeys names o.toDict = [] := by
  rw [unknownKeys_eq_nil_iff]
  rintro ⟨key, hkey, hunknown⟩
  obtain ⟨name, rfl, -⟩ := mem_keys_toDict.mp hkey
  refine hunknown (List.mem_map_of_mem ?_)
  cases name <;> decide

/-! ### What is read -/

variable {o : Options} {d : Dict}

/-- A dictionary is accepted as options when it has no unknown key and its entries are the values
of these options, which are valid. -/
theorem ofValue_dict_eq_ok_iff : ofValue (.dict d) = .ok o ↔ unknownKeys names d = [] ∧
    entry d "skip" = o.value .skip ∧ entry d "limit" = o.value .limit ∧
    entry d "sort" = o.value .sort ∧ (entry d "fields").itemsOrNone = .ok o.fields ∧ o.Valid := by
  rw [ofValue_dict]
  constructor
  · intro h
    obtain ⟨⟨⟩, hknown, h⟩ := exists_of_bind_eq_ok h
    obtain ⟨fields, hfields, h⟩ := exists_of_bind_eq_ok h
    obtain ⟨hskip, hlimit, hsort, heq, hv⟩ := check_eq_ok_iff.mp h
    cases heq
    exact ⟨refuseUnknown_eq_ok_iff.mp hknown, hskip, hlimit, hsort, hfields, hv⟩
  · rintro ⟨hknown, hskip, hlimit, hsort, hfields, hv⟩
    rw [refuseUnknown_eq_ok_iff.mpr hknown]
    show readEntries d = _
    rw [readEntries, hfields]
    exact check_eq_ok_iff.mpr ⟨hskip, hlimit, hsort, rfl, hv⟩

theorem getD_map_int (count : Option Int) : (count.map Value.int).getD .null = .ofCount count := by
  cases count <;> rfl

theorem getD_map_arrangement (sort : Option (Arrangement Value)) :
    (sort.map Value.arrangement).getD .null = .ofOrdering sort := by
  cases sort <;> rfl

/-- Valid options are read back from what is shown of them. -/
theorem Valid.ofValue_toDict (hv : o.Valid) : ofValue (.dict o.toDict) = .ok o := by
  refine ofValue_dict_eq_ok_iff.mpr ⟨unknownKeys_toDict o, ?_, ?_, ?_, ?_, hv⟩
  · exact (entry_toDict o .skip).trans (getD_map_int o.skip)
  · exact (entry_toDict o .limit).trans (getD_map_int o.limit)
  · exact (entry_toDict o .sort).trans (getD_map_arrangement o.sort)
  · rw [show entry o.toDict "fields" = _ from entry_toDict o .fields, shown?]
    cases o.fields <;> rfl

theorem isSome_map_iff_of_eq_value {α : Type} {f : α → Value} {g : Option α → Value}
    (hnull : g none = .null) (hsome : ∀ a, g (some a) ≠ .null) {a? : Option α} {v : Value}
    (h : v = g a?) : (a?.map f).isSome = true ↔ v ≠ .null := by
  rw [h]
  cases a? with
  | none => exact iff_of_false Bool.false_ne_true (not_not.mpr hnull)
  | some a => exact iff_of_true rfl (hsome a)

/-- Of options that were read from a dictionary, those are shown that carry information there. -/
theorem isSome_shown?_iff (h : ofValue (.dict d) = .ok o) (name : Name) :
    (o.shown? name).isSome = true ↔ name.Informs (entry d name.text) := by
  obtain ⟨-, hskip, hlimit, hsort, hfields, -⟩ := ofValue_dict_eq_ok_iff.mp h
  cases name with
  | skip => exact isSome_map_iff_of_eq_value (g := Value.ofCount) rfl nofun hskip
  | limit => exact isSome_map_iff_of_eq_value (g := Value.ofCount) rfl nofun hlimit
  | sort => exact isSome_map_iff_of_eq_value (g := Value.ofOrdering) rfl nofun hsort
  | fields =>
      refine Iff.trans ?_ (Value.hasElements_iff hfields).symm
      unfold shown?
      cases o.fields <;> simp

end Options

namespace Extras

variable {e : Extras} {d : Dict}

/-- Hints are read back from what is shown of them. -/
theorem ofValue_toDict (e : Extras) : ofValue (.dict e.toDict) = .ok e := by
  obtain ⟨page⟩ := e
  cases page <;> rfl

theorem mem_keys_toDict_iff (h : ofValue (.dict d) = .ok e) {key : Value} :
    key ∈ Dict.keys e.toDict ↔ key = .text "page" ∧ Options.entry d "page" ≠ .null := by
  rw [ofValue_dict] at h
  obtain ⟨⟨⟩, -, h⟩ := exists_of_bind_eq_ok h
  rw [check_eq_ok_iff.mp h]
  obtain ⟨page⟩ := e
  cases page <;> simp [toDict, Dict.keys, pageValue, Value.ofCount]

end Extras

/-- Options that pass the checks, whatever values they come from, are read back from their
dictionary; so are options read from a dictionary, and of these the dictionary has a key for just
those entries that carried information.  The same holds of hints, and every integer is a page. -/
theorem options_read_back :
    (∀ skip limit sort fields o, Options.check skip limit sort fields = .ok o →
      Options.ofValue (.dict o.toDict) = .ok o) ∧
    (∀ d o, Options.ofValue (.dict d) = .ok o → Options.ofValue (.dict o.toDict) = .ok o ∧
      ∀ key, key ∈ Dict.keys o.toDict ↔
        ∃ name : Options.Name, key = .text name.text ∧
          name.Informs (Options.entry d name.text)) ∧
    (∀ page e, Extras.check page = .ok e → Extras.ofValue (.dict e.toDict) = .ok e) ∧
    (∀ d e, Extras.ofValue (.dict d) = .ok e → Extras.ofValue (.dict e.toDict) = .ok e ∧
      ∀ key, key ∈ Dict.keys e.toDict ↔
        key = .text "page" ∧ Options.entry d "page" ≠ .null) ∧
    ∀ n : Int, ∃ e, Extras.check (.int n) = .ok e ∧ e.page = some n := by
  refine ⟨?_, ?_, fun _ e _ => Extras.ofValue_toDict e, ?_, fun n => ⟨⟨some n⟩, rfl, rfl⟩⟩
  · intro skip limit sort fields o h
    exact (Options.Valid.of_check h).ofValue_toDict
  · intro d o h
    obtain ⟨-, -, -, -, -, hv⟩ := Options.ofValue_dict_eq_ok_iff.mp h
    refine ⟨hv.ofValue_toDict, fun key => ?_⟩
    rw [Options.mem_keys_toDict]
    exact exists_congr fun name => and_congr_right fun _ => Options.isSome_shown?_iff h name
  · exact fun d e h => ⟨Extras.ofValue_toDict e, fun key => Extras.mem_keys_toDict_iff h⟩

/-- An empty text for the projection and a null ordering are not shown, and nothing skipped is.  The
keys of a dictionary, null among them, are shown as a projection.  A page that is zero is kept. -/
theorem options_read_back_falsy :
    let d : Dict := [(.text "fields", .text ""), (.text "skip", .int 0), (.text "sort", .null)]
    let o : Options := ⟨some 0, none, none, []⟩
    let p : Options := ⟨none, some 1, none, [.null, .text ""]⟩
    let e : Extras := ⟨some 0⟩
    Options.ofValue (.dict d) = .ok o ∧ Options.ofValue (.dict o.toDict) = .ok o ∧
      Value.text "skip" ∈ Dict.keys o.toDict ∧ Value.text "fields" ∉ Dict.keys o.toDict ∧
      Options.check .null (.int 1) .null (.dict [(.null, .int 7), (.text "", .int 8)]) = .ok p ∧
      Options.ofValue (.dict p.toDict) = .ok p ∧
      Extras.ofValue (.dict [(.text "page", .int 0)]) = .ok e ∧
      Extras.ofValue (.dict e.toDict) = .ok e := by
  intro d o p e
  have hread : Options.ofValue (.dict d) = .ok o := rfl
  have hcheck : Options.check .null (.int 1) .null
      (.dict [(.null, .int 7), (.text "", .int 8)]) = .ok p := rfl
  have hhint : Extras.ofValue (.dict [(.text "page", .int 0)]) = .ok e := rfl
  obtain ⟨hchecked, hoptions, -, hhints, -⟩ := options_read_back
  obtain ⟨hagain, hkeys⟩ := hoptions d o hread
  refine ⟨hread, hagain, ?_, ?_, hcheck, hchecked _ _ _ _ p hcheck, hhint, (hhints _ e hhint).1⟩
  · exact (hkeys _).mpr ⟨.skip, rfl, Value.noConfusion⟩
  · intro hmem
    obtain ⟨name, hname, hinforms⟩ := (hkeys _).mp hmem
    obtain rfl : Options.Name.fields = name := Options.Name.text_injective (Value.text.inj hname)
    obtain ⟨_, hitems, hne⟩ := hinforms
    exact hne (Except.ok.inj hitems).symm

end RecordQuery
