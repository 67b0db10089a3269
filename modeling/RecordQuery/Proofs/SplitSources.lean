import RecordQuery.Proofs.Extrema
import RecordQuery.Proofs.Grouping
import RecordQuery.Proofs.IntegerSums
import RecordQuery.Proofs.Reachable

/-! # Aggregates of split sources

A query over sources that are split in two (`Splits`) matches what the query over the first part
matches, and then what the one over the second part does.  So its aggregates can be put together
from those of the two.  Groups merge key by key, where a key that both have keeps its place and its
form in the first (`groupsBy_append`); sums of integers add up (`Splits.sum`); and of two extrema
the better one is taken, the first of equal ones (`Splits.extremum`).  What a part with nothing to
look at gives, no groups, zero or null, adds nothing.  The main statement is
`aggregates_of_splits`. -/

namespace RecordQuery

/-! ### Entries that are merged -/

/-- Puts two lists of entries together: an entry of the first is joined with what the second lists
under its key, and the entries of the second under other keys follow. -/
def mergeWith {α : Type} (join : α → α → α) (es fs : List (Value × α)) : List (Value × α) :=
  (es.map fun e => (e.1, (listed? fs e.1).elim e.2 (join e.2))) ++
    fs.filter fun f => !es.any fun e => f.1.same e.1

theorem mapListed_mergeWith {α β : Type} {f : α → β} {join : α → α → α} {joined : β → β → β}
    (hf : ∀ a b, f (join a b) = joined (f a) (f b)) (es fs : List (Value × α)) :
    mapListed f (mergeWith join es fs) = mergeWith joined (mapListed f es) (mapListed f fs) := by
  unfold mergeWith
  simp only [listed?_mapListed]
  unfold mapListed
  simp only [List.any_map]
  rw [List.map_append, List.map_map, List.map_map, List.filter_map]
  congr 1
  refine List.map_congr_left fun e _ => ?_
  cases h : listed? fs e.1 with
  | none => simp [h]
  | some b => simp [h, hf]

namespace Context

/-! ### Groups -/

/-- The groups of the sources of two lists are their groups merged. -/
theorem groupsBy_append (key : Value → Value) (docs more : List Value) :
    groupsBy key (docs ++ more) = mergeWith (· ++ ·) (groupsBy key docs) (groupsBy key more) := by
  unfold mergeWith
  simp only [listed?_groupsBy_eq, any_groupsBy]
  unfold groupsBy groupsUnder
  rw [List.map_append, firsts_append, List.map_append, List.map_map, List.filter_map]
  congr 1
  -- the keys of the first list stay, with what the second adds to their groups
  · refine List.map_congr_left fun k _ => Prod.ext rfl ?_
    rw [withKey_append, Function.comp_apply]
    dsimp only
    cases h : (more.map key).any k.same with
    | true => rw [if_pos rfl, Option.elim_some]
    | false => rw [withKey_eq_nil h, if_neg Bool.false_ne_true, Option.elim_none, List.append_nil]
  -- the other keys of the second list come with its groups alone
  · refine List.map_congr_left fun k hk => Prod.ext rfl ?_
    have hnone : (docs.map key).any k.same = false := by simpa using (List.mem_filter.mp hk).2
    rw [withKey_append, withKey_eq_nil hnone, List.nil_append]

/-! ### Split queries -/

/-- Whether a query runs over the sources of one query followed by those of another, and has the
selector and the projection of both. -/
structure Splits (x a b : Context) : Prop where
  documents : x.criteria.documents = a.criteria.documents ++ b.criteria.documents
  selector_left : a.criteria.selector = x.criteria.selector
  selector_right : b.criteria.selector = x.criteria.selector
  fields_left : a.criteria.options.fields = x.criteria.options.fields
  fields_right : b.criteria.options.fields = x.criteria.options.fields

variable {x a b : Context}

namespace Splits

theorem selection (h : Splits x a b) :
    x.criteria.selection = a.criteria.selection ++ b.criteria.selection := by
  unfold Criteria.selection
  rw [h.documents, List.filter_append, h.selector_left, h.selector_right]

theorem presentOf (h : Splits x a b) (name : String) :
    x.criteria.presentOf name = a.criteria.presentOf name ++ b.criteria.presentOf name := by
  unfold Criteria.presentOf Criteria.valuesOf
  rw [h.selection, List.map_append, List.filter_append]

theorem wellPosed (h : Splits x a b) (hc : x.criteria.WellPosed) :
    a.criteria.WellPosed ∧ b.criteria.WellPosed := by
  obtain ⟨hsources, hnames⟩ := hc
  rw [h.documents, List.forall_mem_append] at hsources
  exact ⟨⟨hsources.1, h.selector_left ▸ hnames⟩, ⟨hsources.2, h.selector_right ▸ hnames⟩⟩

theorem groupingField (h : Splits x a b) :
    a.criteria.options.groupingField = x.criteria.options.groupingField ∧
      b.criteria.options.groupingField = x.criteria.options.groupingField := by
  unfold Options.groupingField
  rw [h.fields_left, h.fields_right]
  exact ⟨rfl, rfl⟩

theorem groupable (h : Splits x a b) (hg : x.criteria.Groupable) :
    a.criteria.Groupable ∧ b.criteria.Groupable := by
  unfold Criteria.Groupable
  rw [h.groupingField.1, h.groupingField.2]
  exact ⟨hg, hg⟩

theorem keyOf (h : Splits x a b) :
    a.criteria.keyOf = x.criteria.keyOf ∧ b.criteria.keyOf = x.criteria.keyOf := by
  unfold Criteria.keyOf
  rw [h.groupingField.1, h.groupingField.2]
  exact ⟨rfl, rfl⟩

/-! ### Groups of split queries -/

/-- Grouping fails just when it fails for a part. -/
theorem group_error_iff (h : Splits x a b) (hc : x.criteria.WellPosed)
    (hg : x.criteria.Groupable) :
    (∃ e, x.group = .error e) ↔ (∃ e, a.group = .error e) ∨ ∃ e, b.group = .error e := by
  obtain ⟨hca, hcb⟩ := h.wellPosed hc
  obtain ⟨hga, hgb⟩ := h.groupable hg
  simp only [exists_error_iff, group_eq_ok_iff hc hg, group_eq_ok_iff hca hga,
    group_eq_ok_iff hcb hgb, h.selection, h.keyOf.1, h.keyOf.2, List.forall_mem_append]
  simp only [exists_and_left, exists_eq, and_true]
  exact not_and_or

theorem group_eq (h : Splits x a b) (hc : x.criteria.WellPosed) (hg : x.criteria.Groupable)
    {gs hs : Groups} (ha : a.group = .ok gs) (hb : b.group = .ok hs) :
    x.group = .ok (mergeWith (· ++ ·) gs hs) := by
  obtain ⟨hca, hcb⟩ := h.wellPosed hc
  obtain ⟨hga, hgb⟩ := h.groupable hg
  rw [group_eq_ok_iff hca hga, h.keyOf.1] at ha
  rw [group_eq_ok_iff hcb hgb, h.keyOf.2] at hb
  rw [group_eq_ok_iff hc hg, h.selection, List.forall_mem_append, groupsBy_append, ha.2, hb.2]
  exact ⟨⟨ha.1, hb.1⟩, rfl⟩

/-- The sizes of merged groups are the sizes of the groups, added key by key. -/
theorem aggregate_eq_merged (h : Splits x a b) (hc : x.criteria.WellPosed)
    (hg : x.criteria.Groupable) {gs hs : Groups} (ha : a.group = .ok gs) (hb : b.group = .ok hs) :
    ∃ ms ns, a.aggregate = .ok ms ∧ b.aggregate = .ok ns ∧
      x.aggregate = .ok (mergeWith (· + ·) ms ns) := by
  refine ⟨mapListed List.length gs, mapListed List.length hs, aggregate_eq ha, aggregate_eq hb, ?_⟩
  have hsizes : mapListed List.length (mergeWith (· ++ ·) gs hs) =
      mergeWith (· + ·) (mapListed List.length gs) (mapListed List.length hs) :=
    mapListed_mergeWith (fun _ _ => List.length_append) gs hs
  rw [← hsizes]
  exact aggregate_eq (h.group_eq hc hg ha hb)

/-! ### Sums and extrema of split queries -/

theorem sum (h : Splits x a b) (hc : x.criteria.WellPosed) {name : String}
    (hint : ∀ v ∈ x.criteria.presentOf name, v.IsInteger) :
    ∃ s t r total, a.sum (.text name) = .ok s ∧ b.sum (.text name) = .ok t ∧
      s.add t = .ok (.int total) ∧ x.sum (.text name) = .ok r ∧ r.eq (.int total) = true := by
  obtain ⟨hca, hcb⟩ := h.wellPosed hc
  obtain ⟨r, hr, hrn⟩ := gridSum_integers hint
  rw [h.presentOf] at hint hrn
  rw [List.forall_mem_append] at hint
  obtain ⟨s, hs, hsn⟩ := gridSum_integers hint.1
  obtain ⟨t, ht, htn⟩ := gridSum_integers hint.2
  refine ⟨s, t, r, _, (sum_eq hca name).trans hs, (sum_eq hcb name).trans ht,
    Value.add_of_number? hsn htn, (sum_eq hc name).trans hr, ?_⟩
  rw [← List.sum_append, ← List.map_append]
  unfold Value.eq
  rw [Value.isNaN_of_number? hrn, Value.same_of_number? hrn rfl rfl]
  rfl

/-- A search that takes the best of some values, the first of equal ones, finds for a split query
the better one of what it finds for the parts. -/
theorem extremum (h : Splits x a b) (hc : x.criteria.WellPosed) {name : String}
    {search : List Value → Except Fault (Option Value)} {pick : List Value → Option Value}
    (hsearch : ∀ vs ⊆ x.criteria.presentOf name, search vs = .ok (pick vs))
    (hmem : ∀ {vs v}, v ∈ pick vs → v ∈ vs)
    (happend : ∀ vs ws, pick (vs ++ ws) = pick ((pick vs).toList ++ (pick ws).toList)) :
    ∃ s t r, a.extremum search (.text name) = .ok s ∧ b.extremum search (.text name) = .ok t ∧
      search ([s, t].filter isPresent) = .ok r ∧
      x.extremum search (.text name) = .ok (r.getD .null) := by
  obtain ⟨hca, hcb⟩ := h.wellPosed hc
  have hall := h.presentOf name
  have hleft : a.criteria.presentOf name ⊆ x.criteria.presentOf name := by
    rw [hall]
    exact List.subset_append_left _ _
  have hright : b.criteria.presentOf name ⊆ x.criteria.presentOf name := by
    rw [hall]
    exact List.subset_append_right _ _
  have hpresent : ∀ c : Criteria, ∀ v ∈ pick (c.presentOf name), isPresent v = true :=
    fun c v hv => (List.mem_filter.mp (hmem hv)).2
  refine ⟨_, _, pick (x.criteria.presentOf name), extremum_eq hca (hsearch _ hleft),
    extremum_eq hcb (hsearch _ hright), ?_, extremum_eq hc (hsearch _ (List.Subset.refl _))⟩
  rw [filter_isPresent_pair (hpresent _) (hpresent _), hsearch, ← happend, ← hall]
  intro v hv
  simp only [List.mem_append, Option.mem_toList] at hv
  rcases hv with hv | hv
  · exact hleft (hmem hv)
  · exact hright (hmem hv)

theorem minimum_and_maximum (h : Splits x a b) (hc : x.criteria.WellPosed) {name : String}
    {β : Type} [LinearOrder β] {key : Value → β}
    (hkey : Value.OrderedBy key (x.criteria.presentOf name)) :
    (∃ s t r, a.minimum (.text name) = .ok s ∧ b.minimum (.text name) = .ok t ∧
      Value.minimum? ([s, t].filter isPresent) = .ok r ∧
      x.minimum (.text name) = .ok (r.getD .null)) ∧
    ∃ s t r, a.maximum (.text name) = .ok s ∧ b.maximum (.text name) = .ok t ∧
      Value.maximum? ([s, t].filter isPresent) = .ok r ∧
      x.maximum (.text name) = .ok (r.getD .null) := by
  simp only [minimum_eq_extremum, maximum_eq_extremum]
  constructor
  · exact h.extremum hc (fun _ hvs => Value.minimum?_eq_argmin (hkey.subset hvs)) List.argmin_mem
      (argmin_append key)
  · exact h.extremum hc (fun _ hvs => Value.maximum?_eq_argmax (hkey.subset hvs)) List.argmax_mem
      (argmax_append key)

end Splits

/-- The aggregates of a split query are put together from those of its parts: counts are added;
grouping fails just when it does for a part, and else groups are merged and their sizes added key
by key; sums of integers are added, up to equality of the results; and the least and the greatest of
numbers none of which is a NaN, or of texts, are those of what the two parts give, if that is not
null. -/
theorem aggregates_of_splits (h : Splits x a b) (hc : x.criteria.WellPosed)
    (hg : x.criteria.Groupable) :
    (∃ m n, a.count = .ok m ∧ b.count = .ok n ∧ x.count = .ok (m + n)) ∧
    ((∃ e, x.group = .error e) ↔ (∃ e, a.group = .error e) ∨ ∃ e, b.group = .error e) ∧
    (∀ gs hs, a.group = .ok gs → b.group = .ok hs →
      x.group = .ok (mergeWith (· ++ ·) gs hs) ∧
      ∃ ms ns, a.aggregate = .ok ms ∧ b.aggregate = .ok ns ∧
        x.aggregate = .ok (mergeWith (· + ·) ms ns)) ∧
    ∀ name, ∃ vs ws, a.presentValues (.text name) = .ok vs ∧
      b.presentValues (.text name) = .ok ws ∧ x.presentValues (.text name) = .ok (vs ++ ws) ∧
      ((∀ v ∈ vs ++ ws, v.IsInteger) →
        ∃ s t r total, a.sum (.text name) = .ok s ∧ b.sum (.text name) = .ok t ∧
          s.add t = .ok (.int total) ∧ x.sum (.text name) = .ok r ∧ r.eq (.int total) = true) ∧
      (((∀ v ∈ vs ++ ws, v.IsOrderedNumber) ∨ ∀ v ∈ vs ++ ws, v.kind = .text) →
        (∃ s t r, a.minimum (.text name) = .ok s ∧ b.minimum (.text name) = .ok t ∧
          Value.minimum? ([s, t].filter isPresent) = .ok r ∧
          x.minimum (.text name) = .ok (r.getD .null)) ∧
        ∃ s t r, a.maximum (.text name) = .ok s ∧ b.maximum (.text name) = .ok t ∧
          Value.maximum? ([s, t].filter isPresent) = .ok r ∧
          x.maximum (.text name) = .ok (r.getD .null)) := by
  obtain ⟨hca, hcb⟩ := h.wellPosed hc
  refine ⟨⟨_, _, count_eq hca, count_eq hcb, ?_⟩, h.group_error_iff hc hg,
    fun gs hs ha hb => ⟨h.group_eq hc hg ha hb, h.aggregate_eq_merged hc hg ha hb⟩,
    fun name => ⟨_, _, presentValues_eq hca name, presentValues_eq hcb name, ?_⟩⟩
  · rw [count_eq hc, h.selection, List.length_append]
  · rw [← h.presentOf]
    refine ⟨presentValues_eq hc name, h.sum hc, ?_⟩
    rintro (hnumbers | htexts)
    · exact h.minimum_and_maximum hc (Value.orderedBy_point hnumbers)
    · exact h.minimum_and_maximum hc (Value.orderedBy_characters htexts)

/-- A key that both parts have keeps its place, a truth value is added to integers, and a part with
no text in the field leaves the least text to the other one. -/
theorem aggregates_of_splits_mixed :
    let doc : Value → Value → Value → Value := fun k n t =>
      .document [(.text "k", k), (.text "n", n), (.text "t", t)]
    let p := doc (.text "p") (.int 3) .null
    let q := doc .null (.bool true) .null
    let r := doc (.text "r") .null (.text "b")
    let s := doc (.text "p") (.int 4) (.text "a")
    let query : List Value → Context := fun docs =>
      (Criteria.empty.run [.documents (.list docs), .only [.text "k"]]).context
    (query [p, q, r, s]).group =
        .ok [(.text "p", [p, s]), (.null, [q]), (.text "r", [r])] ∧
      (∃ total, (query [p, q, r, s]).sum (.text "n") = .ok total ∧ total.eq (.int 8) = true) ∧
      (query [p, q, r, s]).minimum (.text "t") = .ok (.text "a") := by
  intro doc p q r s query
  have hsplits : Splits (query [p, q, r, s]) (query [p, q]) (query [r, s]) :=
    ⟨rfl, rfl, rfl, rfl, rfl⟩
  have hfield : (query [p, q, r, s]).criteria.options.groupingField = some (.text "k") := rfl
  obtain ⟨-, -, hgroup, hfields⟩ := aggregates_of_splits hsplits (by decide +kernel)
    (Criteria.groupable_of_field hfield)
  refine ⟨?_, ?_, ?_⟩
  · have hleft : (query [p, q]).group = .ok [(.text "p", [p]), (.null, [q])] := by
      with_unfolding_all rfl
    have hright : (query [r, s]).group = .ok [(.text "r", [r]), (.text "p", [s])] := by
      with_unfolding_all rfl
    rw [(hgroup _ _ hleft hright).1]
    with_unfolding_all rfl
  · obtain ⟨vs, ws, hvs, hws, -, hsum, -⟩ := hfields "n"
    cases hvs.symm.trans
      (show (query [p, q]).presentValues (.text "n") = .ok [.int 3, .bool true] by
        with_unfolding_all rfl)
    cases hws.symm.trans
      (show (query [r, s]).presentValues (.text "n") = .ok [.int 4] by with_unfolding_all rfl)
    obtain ⟨m, n, total, sum, hm, hn, hadd, htotal, heq⟩ :=
      hsum (by simp [Value.IsInteger, Value.kind])
    cases hm.symm.trans
      (show (query [p, q]).sum (.text "n") = .ok (.int 4) by with_unfolding_all rfl)
    cases hn.symm.trans
      (show (query [r, s]).sum (.text "n") = .ok (.int 4) by with_unfolding_all rfl)
    cases hadd
    exact ⟨total, htotal, heq⟩
  · obtain ⟨vs, ws, hvs, hws, -, -, hextrema⟩ := hfields "t"
    cases hvs.symm.trans
      (show (query [p, q]).presentValues (.text "t") = .ok [] by with_unfolding_all rfl)
    cases hws.symm.trans
      (show (query [r, s]).presentValues (.text "t") = .ok [.text "b", .text "a"] by
        with_unfolding_all rfl)
    obtain ⟨⟨m, n, least, hm, hn, hleast, hmin⟩, -⟩ := hextrema (.inr (by simp [Value.kind]))
    cases hm.symm.trans
      (show (query [p, q]).minimum (.text "t") = .ok .null by with_unfolding_all rfl)
    cases hn.symm.trans
      (show (query [r, s]).minimum (.text "t") = .ok (.text "a") by with_unfolding_all rfl)
    cases hleast
    exact hmin

end Context
end RecordQuery
