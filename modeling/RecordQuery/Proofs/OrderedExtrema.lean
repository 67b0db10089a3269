import Mathlib.Data.List.Chain
import RecordQuery.Proofs.FieldOrder
import RecordQuery.Proofs.Retrieval

/-! # Extrema and order

The least and the greatest value of a field are found by a scan of the matched sources, and the
first and the last source by whatever arranges them.  Where the values of the field are `MeasuredBy`
keys, points of a line by which they compare and are equal, the two agree: the scan finds the first
of the values whose key is least or greatest (`exists_split_of_mem_argmin`), and an arrangement that
puts the same sources in an order in which the field never decreases has sources with equal values
at its ends.  Numbers without a NaN have such keys, and so have texts, and the standard arrangement
by a field is such an arrangement (`sortsInto_byField`).  The main statement is
`extrema_agree_with_order`. -/

namespace RecordQuery

/-! ### The first of the least -/

section First

variable {α β : Type} [LinearOrder β] {f : α → β} {xs : List α} {m : α}

/-- Of the elements with the least key, the first one is picked. -/
theorem exists_split_of_mem_argmin (h : m ∈ xs.argmin f) :
    ∃ front back, xs = front ++ m :: back ∧ ∀ a ∈ front, f m < f a := by
  induction xs using List.reverseRecOn generalizing m with
  | nil => exact absurd h (by simp)
  | append_singleton xs x ih =>
      rw [List.argmin_concat] at h
      cases hc : xs.argmin f with
      | none =>
          rw [hc] at h
          obtain rfl : x = m := by simpa using h
          rw [List.argmin_eq_none.mp hc]
          exact ⟨[], [], rfl, by simp⟩
      | some c =>
          rw [hc] at h
          by_cases hlt : f x < f c
          · simp only [if_pos hlt, Option.mem_def, Option.some.injEq] at h
            subst h
            refine ⟨xs, [], rfl, fun a ha => ?_⟩
            exact lt_of_lt_of_le hlt (List.le_of_mem_argmin ha hc)
          · simp only [if_neg hlt, Option.mem_def, Option.some.injEq] at h
            subst h
            obtain ⟨front, back, hsplit, hfront⟩ := ih hc
            exact ⟨front, back ++ [x], by rw [hsplit]; simp, hfront⟩

theorem exists_split_of_mem_argmax (h : m ∈ xs.argmax f) :
    ∃ front back, xs = front ++ m :: back ∧ ∀ a ∈ front, f a < f m :=
  exists_split_of_mem_argmin (f := fun a => OrderDual.toDual (f a)) h

end First

namespace Value

/-! ### Values with keys -/

variable {β : Type} [LinearOrder β] {key : Value → β} {vs : List Value}

/-- Whether values compare as their keys do and are equal when their keys are. -/
structure MeasuredBy (key : Value → β) (vs : List Value) : Prop where
  order : OrderedBy key vs
  equality : ∀ v ∈ vs, ∀ w ∈ vs, v.eq w = true ↔ key v = key w

/-- Whether a value can be compared with another one, and lies before it or equals it. -/
def atMost (v w : Value) : Prop := ∃ less, v.lt w = .ok less ∧ (less = true ∨ v.eq w = true)

theorem MeasuredBy.atMost_iff (h : MeasuredBy key vs) {v w : Value} (hv : v ∈ vs) (hw : w ∈ vs) :
    v.atMost w ↔ key v ≤ key w := by
  have hlt : v.lt w = .ok (decide (key v < key w)) := h.order v hv w hw .less
  rw [le_iff_lt_or_eq, ← h.equality v hv w hw]
  constructor
  · rintro ⟨less, hless, hor⟩
    rw [hlt] at hless
    obtain rfl := Except.ok.inj hless
    exact hor.imp_left of_decide_eq_true
  · intro hor
    exact ⟨_, hlt, hor.imp_left decide_eq_true⟩

theorem MeasuredBy.perm {ws : List Value} (h : MeasuredBy key vs) (hp : ws.Perm vs) :
    MeasuredBy key ws :=
  ⟨h.order.subset hp.subset, fun v hv w hw => h.equality v (hp.subset hv) w (hp.subset hw)⟩

theorem identity_of_position? {n : Number} {p : Position} (h : n.position? = some p) :
    n.identity = .point p := by
  unfold Number.position? at h
  cases hn : n.identity with
  | point q =>
      rw [hn] at h
      rw [Option.some.inj h]
  | nan tag =>
      rw [hn] at h
      exact nomatch h

theorem measuredBy_point (h : ∀ v ∈ vs, v.IsOrderedNumber) : MeasuredBy point vs where
  order := orderedBy_point h
  equality v hv w hw := by
    obtain ⟨m, p, hm, hp⟩ := exists_position? (h v hv)
    obtain ⟨n, q, hn, hq⟩ := exists_position? (h w hw)
    have hsame : v.same w = true ↔ p = q := by
      constructor
      · intro hvw
        obtain ⟨k, hk, hmk⟩ := number?_of_same hm hvw
        rw [hn] at hk
        obtain rfl := Option.some.inj hk
        rw [identity_of_position? hp, identity_of_position? hq] at hmk
        exact Number.Identity.point.inj hmk
      · rintro rfl
        exact same_of_number? hm hn (by rw [identity_of_position? hp, identity_of_position? hq])
    have hpoint : point v = point w ↔ p = q := by
      unfold point
      rw [hm, hn, Option.bind_some, Option.bind_some, hp, hq]
      obtain ⟨side, units⟩ := p
      obtain ⟨side', units'⟩ := q
      simp
    unfold eq
    rw [(h v hv).2, hpoint, ← hsame]
    simp

theorem measuredBy_characters (h : ∀ v ∈ vs, v.kind = .text) : MeasuredBy characters vs where
  order := orderedBy_characters h
  equality v hv w hw := by
    obtain ⟨s, rfl⟩ := kind_eq_text_iff.mp (h v hv)
    obtain ⟨t, rfl⟩ := kind_eq_text_iff.mp (h w hw)
    show same (.text s) (.text t) = true ↔ s = t
    rw [same_text_iff, Value.text.injEq]
    exact eq_comm

end Value

namespace Context

variable {x : Context} {name : String}

/-! ### Both ends of an order -/

/-- Whether a field never decreases from one source to the next. -/
def NonDecreasing (name : Value) (docs : List Value) : Prop :=
  docs.IsChain fun s t => ∃ v w, s.field name = .ok v ∧ t.field name = .ok w ∧ v.atMost w

/-- Whether a value stands among others, and none before it is equal to it. -/
def FirstOfEquals (m : Value) (vs : List Value) : Prop :=
  ∃ front back, vs = front ++ m :: back ∧ ∀ v ∈ front, v.eq m = false

/-- Whether an arrangement makes of the matched sources a permutation in which a field never
decreases. -/
structure SortsInto (x : Context) (name : Value) (a : Arrangement Value) (docs : List Value) :
    Prop where
  arranges : x.arranger a x.criteria.selection = .ok docs
  perm : docs.Perm x.criteria.selection
  nonDecreasing : NonDecreasing name docs

theorem orderBy_ends (hc : x.criteria.WellPosed) {a : Arrangement Value} {docs : List Value}
    (ha : x.arranger a x.criteria.selection = .ok docs) :
    ∃ c, x.criteria.orderBy (.arrangement a) = .ok c ∧
      ({ x with criteria := c } : Context).first = .ok docs.head? ∧
      ({ x with criteria := c } : Context).last = .ok docs.getLast? := by
  let c : Criteria := { x.criteria with options := { x.criteria.options with sort := some a } }
  have hc' : c.WellPosed := ⟨hc.sources, hc.names⟩
  have harranged : ({ x with criteria := c } : Context).arranged = .ok docs := by
    rw [arranged_eq hc']
    exact ha
  refine ⟨c, rfl, ?_, ?_⟩
  · unfold first
    rw [harranged]
    rfl
  · unfold last
    rw [harranged]
    rfl

section Keys

variable {β : Type} [LinearOrder β] {key : Value → β} {docs : List Value}

theorem pairwise_of_nonDecreasing (h : NonDecreasing (.text name) docs)
    (hd : ∀ s ∈ docs, s.hasFields = true)
    (hkey : Value.MeasuredBy key (docs.map (Value.fieldOrNull name))) :
    (docs.map fun s => key (s.fieldOrNull name)).Pairwise (· ≤ ·) := by
  rw [← List.isChain_iff_pairwise, List.isChain_map]
  refine List.IsChain.imp_of_mem_imp (fun s t hs ht => ?_) h
  rintro ⟨v, w, hv, hw, hvw⟩
  rw [Value.field_text (hd s hs)] at hv
  rw [Value.field_text (hd t ht)] at hw
  obtain rfl := Except.ok.inj hv
  obtain rfl := Except.ok.inj hw
  exact (hkey.atMost_iff (List.mem_map_of_mem hs) (List.mem_map_of_mem ht)).mp hvw

theorem nonDecreasing_of_ascending (hd : ∀ s ∈ docs, s.hasFields = true)
    (hkey : Value.MeasuredBy key (docs.map (Value.fieldOrNull name)))
    (h : Sorting.Ascending (fun s => key (Value.fieldOrNull name s)) docs) :
    NonDecreasing (.text name) docs := by
  refine List.IsChain.imp_of_mem_imp (fun s t hs ht hle => ?_) h.isChain
  exact ⟨_, _, Value.field_text (hd s hs) name, Value.field_text (hd t ht) name,
    (hkey.atMost_iff (List.mem_map_of_mem hs) (List.mem_map_of_mem ht)).mpr hle⟩

/-- The standard arrangement by the field is among those that sort. -/
theorem sortsInto_byField (hc : x.criteria.WellPosed) (harranger : x.arranger = Arrangement.apply)
    (hkey : Value.MeasuredBy key (x.criteria.valuesOf name)) (ident : Nat) :
    x.SortsInto (.text name) ⟨ident, .byField (.text name) false⟩ (x.criteria.selection.mergeSort
      (Sorting.byKey fun s => key (s.fieldOrNull name))) := by
  have hd : ∀ s ∈ x.criteria.selection, s.hasFields = true := fun s hs => hc.hasFields_of_mem hs
  have hperm := List.mergeSort_perm x.criteria.selection
    (Sorting.byKey fun s => key (s.fieldOrNull name))
  refine ⟨?_, hperm, nonDecreasing_of_ascending (fun s hs => hd s (hperm.mem_iff.mp hs))
    (hkey.perm (hperm.map _)) (Sorting.ascending_mergeSort _)⟩
  rw [harranger]
  exact Arrangement.sortByField_eq hd hkey.order false

/-- In a permutation that never decreases, the first source has the least value and the last one has
the greatest. -/
theorem SortsInto.ends (hc : x.criteria.WellPosed) {a : Arrangement Value}
    (h : x.SortsInto (.text name) a docs) (hne : x.criteria.selection ≠ [])
    (hkey : Value.MeasuredBy key (x.criteria.valuesOf name)) :
    ∃ s ∈ x.criteria.selection, ∃ t ∈ x.criteria.selection,
      docs.head? = some s ∧ docs.getLast? = some t ∧
      ∀ v ∈ x.criteria.valuesOf name,
        key (s.fieldOrNull name) ≤ key v ∧ key v ≤ key (t.fieldOrNull name) := by
  have hpairwise := pairwise_of_nonDecreasing h.nonDecreasing
    (fun s hs => hc.hasFields_of_mem (h.perm.subset hs)) (hkey.perm (h.perm.map _))
  have hdocs : docs ≠ [] := fun hnil => hne (List.perm_nil.mp (hnil ▸ h.perm.symm))
  refine ⟨docs.head hdocs, h.perm.subset (List.head_mem hdocs), docs.getLast hdocs,
    h.perm.subset (List.getLast_mem hdocs), List.head?_eq_some_head hdocs,
    List.getLast?_eq_some_getLast hdocs, fun v hv => ?_⟩
  obtain ⟨u, hu, rfl⟩ := List.mem_map.mp hv
  have hmem := List.mem_map_of_mem (f := fun s => key (s.fieldOrNull name))
    (h.perm.symm.subset hu)
  have hleast := hpairwise.rel_head hmem
  have hgreatest := hpairwise.rel_getLast hmem
  rw [List.head_map] at hleast
  rw [List.getLast_map] at hgreatest
  exact ⟨hleast, hgreatest⟩

/-- An arrangement by the field has sources at its ends whose values are equal to the extrema. -/
theorem SortsInto.first_and_last (hc : x.criteria.WellPosed) {a : Arrangement Value}
    (h : x.SortsInto (.text name) a docs)
    (hkey : Value.MeasuredBy key (x.criteria.valuesOf name)) {least greatest : Value}
    (hleast : least ∈ (x.criteria.valuesOf name).argmin key)
    (hgreatest : greatest ∈ (x.criteria.valuesOf name).argmax key) :
    ∃ (c : Criteria) (s t v w : Value), x.criteria.orderBy (.arrangement a) = .ok c ∧
      ({ x with criteria := c } : Context).first = .ok (some s) ∧
      s.field (.text name) = .ok v ∧ v.eq least = true ∧
      ({ x with criteria := c } : Context).last = .ok (some t) ∧
      t.field (.text name) = .ok w ∧ w.eq greatest = true := by
  have hl := List.argmin_mem hleast
  have hg := List.argmax_mem hgreatest
  have hne : x.criteria.selection ≠ [] := by
    intro hnil
    unfold Criteria.valuesOf at hl
    rw [hnil] at hl
    exact nomatch hl
  obtain ⟨s, hs, t, ht, hhead, hlast, hends⟩ := h.ends hc hne hkey
  obtain ⟨c, hcriteria, hfirst, hlast'⟩ := orderBy_ends hc h.arranges
  have hsval := List.mem_map_of_mem (f := Value.fieldOrNull name) hs
  have htval := List.mem_map_of_mem (f := Value.fieldOrNull name) ht
  refine ⟨c, s, t, s.fieldOrNull name, t.fieldOrNull name, hcriteria, hhead ▸ hfirst,
    Value.field_text (hc.hasFields_of_mem hs) name, ?_, hlast ▸ hlast',
    Value.field_text (hc.hasFields_of_mem ht) name, ?_⟩
  · rw [hkey.equality _ hsval least hl]
    exact le_antisymm (hends least hl).1 (List.le_of_mem_argmin hsval hleast)
  · rw [hkey.equality _ htval greatest hg]
    exact le_antisymm (List.le_of_mem_argmax htval hgreatest) (hends greatest hg).2

theorem firstOfEquals_argmin {vs : List Value} (hkey : Value.MeasuredBy key vs) {m : Value}
    (hm : m ∈ vs.argmin key) : FirstOfEquals m vs := by
  obtain ⟨front, back, hsplit, hfront⟩ := exists_split_of_mem_argmin hm
  refine ⟨front, back, hsplit, fun v hv => ?_⟩
  have hmem : v ∈ vs := hsplit ▸ List.mem_append_left _ hv
  rw [Bool.eq_false_iff, Ne, hkey.equality v hmem m (List.argmin_mem hm)]
  exact ne_of_gt (hfront v hv)

theorem firstOfEquals_argmax {vs : List Value} (hkey : Value.MeasuredBy key vs) {m : Value}
    (hm : m ∈ vs.argmax key) : FirstOfEquals m vs := by
  obtain ⟨front, back, hsplit, hfront⟩ := exists_split_of_mem_argmax hm
  refine ⟨front, back, hsplit, fun v hv => ?_⟩
  have hmem : v ∈ vs := hsplit ▸ List.mem_append_left _ hv
  rw [Bool.eq_false_iff, Ne, hkey.equality v hmem m (List.argmax_mem hm)]
  exact ne_of_lt (hfront v hv)

/-- Values that are present and have keys have extrema, found by the scan. -/
theorem exists_extrema (hc : x.criteria.WellPosed)
    (hkey : Value.MeasuredBy key (x.criteria.valuesOf name))
    (hpresent : ∀ v ∈ x.criteria.valuesOf name, isPresent v = true)
    (hne : x.criteria.selection ≠ []) :
    ∃ least ∈ (x.criteria.valuesOf name).argmin key,
      ∃ greatest ∈ (x.criteria.valuesOf name).argmax key,
        x.minimum (.text name) = .ok least ∧ x.maximum (.text name) = .ok greatest := by
  have hpresentOf : x.criteria.presentOf name = x.criteria.valuesOf name :=
    List.filter_eq_self.mpr hpresent
  have hvalues : x.criteria.valuesOf name ≠ [] := fun h => hne (List.map_eq_nil_iff.mp h)
  obtain ⟨least, hleast, greatest, hgreatest, hminimum, hmaximum⟩ :=
    hkey.order.exists_least_and_greatest hvalues
  rw [← hpresentOf] at hminimum hmaximum
  refine ⟨least, hleast, greatest, hgreatest, ?_, ?_⟩
  · rw [minimum_eq_extremum]
    exact extremum_eq hc hminimum
  · rw [maximum_eq_extremum]
    exact extremum_eq hc hmaximum

end Keys

/-- Whether all of some sources carry a field with a number and no NaN, or all of them carry it with
a text. -/
def CarriesOrdered (name : Value) (docs : List Value) : Prop :=
  (∀ s ∈ docs, ∃ v, s.field? name = .ok (some v) ∧ v.IsOrderedNumber) ∨
    ∀ s ∈ docs, ∃ v, s.field? name = .ok (some v) ∧ v.kind = .text

theorem forall_valuesOf (hc : x.criteria.WellPosed) {p : Value → Prop}
    (h : ∀ s ∈ x.criteria.selection, ∃ v, s.field? (.text name) = .ok (some v) ∧ p v) :
    ∀ v ∈ x.criteria.valuesOf name, p v := by
  intro v hv
  obtain ⟨s, hs, rfl⟩ := List.mem_map.mp hv
  obtain ⟨w, hw, hp⟩ := h s hs
  rw [Value.field?_text (hc.hasFields_of_mem hs)] at hw
  show p (s.fieldOrNull name)
  unfold Value.fieldOrNull
  rw [Except.ok.inj hw]
  exact hp

theorem isPresent_of_kind {v : Value} (h : v.kind ≠ .null) : isPresent v = true := by
  cases v with
  | null => exact absurd rfl h
  | _ => rfl

theorem isPresent_of_isOrderedNumber {v : Value} (h : v.IsOrderedNumber) : isPresent v = true := by
  cases v with
  | null => exact absurd h.1 Bool.false_ne_true
  | _ => rfl

/-- Such fields have values with keys, none of which is null. -/
theorem CarriesOrdered.exists_measure (hc : x.criteria.WellPosed)
    (h : CarriesOrdered (.text name) x.criteria.selection) :
    ∃ (β : Type) (_ : LinearOrder β) (key : Value → β),
      Value.MeasuredBy key (x.criteria.valuesOf name) ∧
      ∀ v ∈ x.criteria.valuesOf name, isPresent v = true := by
  rcases h with hnumbers | htexts
  · have hvalues := forall_valuesOf hc hnumbers
    exact ⟨_, _, Value.point, Value.measuredBy_point hvalues, fun v hv =>
      isPresent_of_isOrderedNumber (hvalues v hv)⟩
  · have hvalues := forall_valuesOf hc htexts
    refine ⟨_, _, Value.characters, Value.measuredBy_characters hvalues, fun v hv => ?_⟩
    apply isPresent_of_kind
    rw [hvalues v hv]
    decide

/-- Where every matched source carries a field with a number and no NaN, or every one with a text,
the least and the greatest value of the field are found; each is the first of the values that equal
it, all values lie between them; and every arrangement that sorts the matched sources by the field
has sources at its ends whose values are equal to them. -/
theorem extrema_agree_with_order (hc : x.criteria.WellPosed) (hne : x.criteria.selection ≠ [])
    (hcarries : CarriesOrdered (.text name) x.criteria.selection) :
    ∃ (values : List Value) (least greatest : Value),
      (x.matched >>= Value.fieldsOf (.text name)) = .ok values ∧
      x.minimum (.text name) = .ok least ∧ x.maximum (.text name) = .ok greatest ∧
      FirstOfEquals least values ∧ FirstOfEquals greatest values ∧
      (∀ v ∈ values, least.atMost v ∧ v.atMost greatest) ∧
      ∀ (a : Arrangement Value) (docs : List Value), x.SortsInto (.text name) a docs →
        ∃ (c : Criteria) (s t v w : Value), x.criteria.orderBy (.arrangement a) = .ok c ∧
          ({ x with criteria := c } : Context).first = .ok (some s) ∧
          s.field (.text name) = .ok v ∧ v.eq least = true ∧
          ({ x with criteria := c } : Context).last = .ok (some t) ∧
          t.field (.text name) = .ok w ∧ w.eq greatest = true := by
  obtain ⟨β, _, key, hkey, hpresent⟩ := hcarries.exists_measure hc
  obtain ⟨least, hleast, greatest, hgreatest, hminimum, hmaximum⟩ :=
    exists_extrema hc hkey hpresent hne
  have hl := List.argmin_mem hleast
  have hg := List.argmax_mem hgreatest
  refine ⟨_, least, greatest, fieldsOf_matched hc name, hminimum, hmaximum,
    firstOfEquals_argmin hkey hleast, firstOfEquals_argmax hkey hgreatest, fun v hv => ⟨?_, ?_⟩,
    fun a docs h => h.first_and_last hc hkey hleast hgreatest⟩
  · exact (hkey.atMost_iff hl hv).mpr (List.le_of_mem_argmin hv hleast)
  · exact (hkey.atMost_iff hv hg).mpr (List.le_of_mem_argmax hv hgreatest)

/-- Two integers, a truth value and an infinity: the truth value is the first of the least ones, and
the source that the standard arrangement puts first has a value equal to it. -/
theorem extrema_agree_with_order_mixed :
    let doc : Nat → Value → Value := fun n v => .record n 1 [(.text "n", v)]
    let x : Context := (Criteria.empty.run [.documents (.list [doc 1 (.int 2), doc 2 (.bool true),
      doc 3 (.number (.float (.infinite false))), doc 4 (.int 1)])]).context
    ∃ least greatest : Value, x.minimum (.text "n") = .ok least ∧ least.kind = .bool ∧
      x.maximum (.text "n") = .ok greatest ∧ greatest.kind = .float ∧
      ∃ (docs : List Value) (c : Criteria) (s v : Value),
        x.SortsInto (.text "n") ⟨0, .byField (.text "n") false⟩ docs ∧
        x.criteria.orderBy (.arrangement ⟨0, .byField (.text "n") false⟩) = .ok c ∧
        ({ x with criteria := c } : Context).first = .ok (some s) ∧
        s.field (.text "n") = .ok v ∧ v.eq least = true := by
  intro doc x
  have hc : x.criteria.WellPosed := by decide +kernel
  have hselection : x.criteria.selection = [doc 1 (.int 2), doc 2 (.bool true),
      doc 3 (.number (.float (.infinite false))), doc 4 (.int 1)] := by
    with_unfolding_all rfl
  have hcarries : ∀ s ∈ x.criteria.selection,
      ∃ v, s.field? (.text "n") = .ok (some v) ∧ v.IsOrderedNumber := by
    rw [hselection]
    simp only [List.forall_mem_cons]
    exact ⟨⟨_, rfl, rfl, rfl⟩, ⟨_, rfl, rfl, rfl⟩, ⟨_, rfl, rfl, rfl⟩, ⟨_, rfl, rfl, rfl⟩, nofun⟩
  have hbool : (x.minimum (.text "n")).toOption.map Value.kind = some .bool := by decide +kernel
  have hfloat : (x.maximum (.text "n")).toOption.map Value.kind = some .float := by decide +kernel
  obtain ⟨values, least, greatest, -, hleast, hgreatest, -, -, -, hends⟩ :=
    extrema_agree_with_order hc (by rw [hselection]; exact List.cons_ne_nil _ _) (.inl hcarries)
  have hsorts := sortsInto_byField hc rfl
    (Value.measuredBy_point (forall_valuesOf hc hcarries)) 0
  obtain ⟨c, s, _, v, _, horder, hfirst, hvalue, heq, -⟩ := hends _ _ hsorts
  rw [hleast] at hbool
  rw [hgreatest] at hfloat
  exact ⟨least, greatest, hleast, Option.some.inj hbool, hgreatest, Option.some.inj hfloat, _, c, s,
    v, hsorts, horder, hfirst, hvalue, heq⟩

end Context
end RecordQuery
