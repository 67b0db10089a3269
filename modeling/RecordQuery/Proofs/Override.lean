import RecordQuery.Proofs.Narrowing

/-! # Added conditions

Adding conditions to a query is a conjunction in which what comes later takes precedence: every
condition on a field that the added ones do not name stays, and every other is replaced.  One
inserted entry replaces what was under its key and keeps its place (`Dict.all_insert`); from it,
over the added entries, a merge holds what it is given and what that leaves of the rest
(`Dict.all_merge`), in whatever order.  So a source is admitted just when it meets the named fields,
what they leave of the conditions given with them, and what both leave of the selector
(`selection_withConditions`).  The laws of adding are read off from this; they are
`filter_conjunction`.

Two names cannot be given to a condition in a call, those of the parameters of the call itself
(`Criteria.Nameable`); a condition on such a field is given in a dictionary. -/

namespace RecordQuery

/-! ### Merged dictionaries -/

theorem Value.same_comm (v w : Value) : v.same w = w.same v :=
  Bool.eq_iff_iff.mpr ⟨Value.same_symm, Value.same_symm⟩

namespace Dict

variable {d e : Dict}

/-- The entries under keys that a second dictionary does not have. -/
def without (d e : Dict) : Dict := d.filter fun x => !contains e x.1

/-- Whether two dictionaries have no key in common. -/
def Disjoint (d e : Dict) : Prop := ∀ x ∈ d, contains e x.1 = false

instance (d e : Dict) : Decidable (Disjoint d e) :=
  inferInstanceAs (Decidable (∀ x ∈ d, contains e x.1 = false))

theorem contains_cons (x : Value × Value) (d : Dict) (key : Value) :
    contains (x :: d) key = (key.same x.1 || contains d key) := rfl

theorem contains_insert (d : Dict) (key v k : Value) :
    contains (insert d key v) k = (k.same key || contains d k) := by
  induction d with
  | nil => rfl
  | cons x d ih =>
      rw [insert]
      split
      · rename_i h
        -- the entry keeps its own form of the key, which is the same as the new one
        have hk : k.same key = true → k.same x.1 = true := fun hk => Value.same_trans hk h
        rw [contains_cons, contains_cons]
        cases hkk : k.same key with
        | false => rfl
        | true => rw [hk hkk, Bool.true_or, Bool.true_or]
      · rw [contains_cons, contains_cons, ih, Bool.or_left_comm]

theorem contains_merge (d e : Dict) (k : Value) :
    contains (merge d e) k = (contains d k || contains e k) := by
  unfold merge
  induction e generalizing d with
  | nil => rw [List.foldl_nil, show contains [] k = false from rfl, Bool.or_false]
  | cons x e ih =>
      rw [List.foldl_cons, ih, contains_insert, contains_cons, Bool.or_assoc, Bool.or_left_comm]

theorem without_of_disjoint (h : Disjoint d e) : without d e = d :=
  List.filter_eq_self.mpr fun x hx => by simp [h x hx]

theorem Disjoint.symm (h : Disjoint d e) : Disjoint e d := by
  intro y hy
  refine contains_eq_false_iff.mpr fun x hx => ?_
  rw [Value.same_comm]
  exact contains_eq_false_iff.mp (h x hx) y hy

theorem without_comm (d e f : Dict) : without (without d e) f = without (without d f) e := by
  unfold without
  rw [List.filter_filter, List.filter_filter]
  exact List.filter_congr fun x _ => Bool.and_comm _ _

theorem without_merge (d e f : Dict) : without d (merge e f) = without (without d e) f := by
  unfold without
  rw [List.filter_filter]
  exact List.filter_congr fun x _ => by rw [contains_merge, Bool.not_or, Bool.and_comm]

theorem all_without (d e : Dict) (p : Value × Value → Bool) :
    (without d e).all p = d.all fun x => contains e x.1 || p x := by
  unfold without
  rw [List.all_filter]
  exact List.all_congr rfl fun x => by rw [Bool.not_not]

/-- An entry that is inserted stands with what it and later ones leave, if none of these has its
key. -/
theorem all_without_insert (hd : Distinct d) {name : String}
    (hfresh : contains e (.text name) = false) (v : Value) (p : Value × Value → Bool) :
    (without (insert d (.text name) v) e).all p =
      ((without d ((.text name, v) :: e)).all p && p (.text name, v)) := by
  rw [all_without, all_insert hd, all_without, erase, List.all_filter]
  congr 1
  · refine List.all_congr rfl fun x => ?_
    rw [contains_cons, Bool.not_not, ← Bool.or_assoc, Value.same_comm]
  · rw [hfresh, Bool.false_or]

/-- A merge holds what it is given, and of the rest what that leaves. -/
theorem all_merge (hd : Distinct d) (he : Distinct e) (hn : Selector.Named e)
    (p : Value × Value → Bool) : (merge d e).all p = ((without d e).all p && e.all p) := by
  -- the entries are inserted one by one, so the dictionary they go into is general
  induction e generalizing d with
  | nil =>
      rw [without_of_disjoint fun _ _ => rfl, List.all_nil, Bool.and_true]
      rfl
  | cons x e ih =>
      obtain ⟨key, v⟩ := x
      obtain ⟨name, hname⟩ := hn _ List.mem_cons_self
      obtain rfl : key = .text name := hname
      obtain ⟨hx, he⟩ := List.pairwise_cons.mp he
      have hfresh : contains e (.text name) = false := contains_eq_false_iff.mpr hx
      calc (merge d ((.text name, v) :: e)).all p
          = (merge (insert d (.text name) v) e).all p := rfl
        _ = ((without (insert d (.text name) v) e).all p && e.all p) :=
            ih (distinct_insert hd _ v) he fun y hy => hn y (List.mem_cons_of_mem _ hy)
        _ = ((without d ((.text name, v) :: e)).all p && ((.text name, v) :: e).all p) := by
            rw [all_without_insert hd hfresh, List.all_cons, Bool.and_assoc]

end Dict

/-! ### Named arguments -/

theorem Dict.named?_eq_none_iff {parameters : List String} {d : Dict} :
    named? parameters d = none ↔ ∀ name ∈ parameters, contains d (.text name) = false := by
  unfold named?
  simp only [List.findSome?_eq_none_iff, List.find?_eq_none, contains_eq_false_iff,
    Bool.not_eq_true]
  exact ⟨fun h name hn e he => h e he name hn, fun h e he name hn => h name hn e he⟩

theorem Dict.mem_of_named?_eq_some {parameters : List String} {d : Dict} {name : String}
    (h : named? parameters d = some name) : name ∈ parameters := by
  obtain ⟨e, -, hname⟩ := List.exists_of_findSome?_eq_some h
  exact List.mem_of_find?_eq_some hname

/-! ### Merged selectors -/

namespace Selector

variable {d e f : Dict} {s : Value}

/-- Whether all fields are named by texts, each once. -/
structure Proper (d : Dict) : Prop where
  names : Named d
  distinct : Dict.Distinct d

instance (d : Dict) : Decidable (Proper d) :=
  decidable_of_iff (Named d ∧ Dict.Distinct d) ⟨fun h => ⟨h.1, h.2⟩, fun h => ⟨h.names, h.distinct⟩⟩

theorem Proper.without (hd : Proper d) (e : Dict) : Proper (d.without e) :=
  ⟨fun x hx => hd.names x (List.mem_of_mem_filter hx), hd.distinct.filter _⟩

theorem Proper.insert (hd : Proper d) (name : String) (v : Value) :
    Proper (d.insert (.text name) v) :=
  ⟨named_insert hd.names name v, Dict.distinct_insert hd.distinct _ v⟩

theorem Proper.merge (hd : Proper d) (he : Named e) : Proper (d.merge e) := by
  unfold Dict.merge
  induction e generalizing d with
  | nil => exact hd
  | cons x e ih =>
      obtain ⟨name, hname⟩ := he x List.mem_cons_self
      rw [List.foldl_cons, hname]
      exact ih (hd.insert name x.2) fun y hy => he y (List.mem_cons_of_mem _ hy)

theorem admits_merge (hs : s.hasFields = true) (hd : Proper d) (he : Proper e) :
    admits (d.merge e) s = (admits (d.without e) s && admits e s) := by
  rw [admits_eq_all hs (hd.merge he.names).names, admits_eq_all hs (hd.without e).names,
    admits_eq_all hs he.names, Dict.all_merge hd.distinct he.distinct he.names]

theorem admits_without_merge (hs : s.hasFields = true) (hd : Proper d) (he : Proper e)
    (f : Dict) : admits ((d.merge e).without f) s =
      (admits ((d.without e).without f) s && admits (e.without f) s) := by
  rw [admits_eq_all hs ((hd.merge he.names).without f).names,
    admits_eq_all hs ((hd.without e).without f).names, admits_eq_all hs (he.without f).names,
    Dict.all_without, Dict.all_merge hd.distinct he.distinct he.names, Dict.all_without _ f,
    Dict.all_without e f]

end Selector

/-! ### Criteria with added conditions -/

namespace Criteria

variable {c : Criteria} {s t named : Dict}

theorem wellPosed_withConditions (hc : c.WellPosed) (hd : Dict.Distinct c.selector)
    (hs : Selector.Named s) : (c.withConditions s).WellPosed :=
  ⟨hc.sources, (Selector.Proper.merge ⟨hc.names, hd⟩ hs).names⟩

/-- Whether a call can be given named conditions: none of them has the name of a parameter. -/
def Nameable (named : Dict) : Prop :=
  ∀ name ∈ filterParameters, Dict.contains named (.text name) = false

instance (named : Dict) : Decidable (Nameable named) :=
  inferInstanceAs (Decidable (∀ name ∈ filterParameters, _))

theorem nameable_nil : Nameable [] := fun _ _ => rfl

theorem filter_dict (c : Criteria) (s : Dict) (h : Nameable named) :
    c.filter (.dict s) named = .ok ((c.withConditions s).withConditions named) := by
  unfold filter Dict.checkNamed
  rw [Dict.named?_eq_none_iff.mpr h]
  cases s <;> rfl

/-- A condition with the name of a parameter is refused, whatever else is given. -/
theorem filter_of_not_nameable (c : Criteria) (conditions : Value) (h : ¬Nameable named) :
    ∃ name ∈ filterParameters,
      c.filter conditions named = .error (.repeatedArgument "Criteria.where" name) := by
  obtain ⟨name, hname⟩ := Option.ne_none_iff_exists'.mp (mt Dict.named?_eq_none_iff.mp h)
  refine ⟨name, Dict.mem_of_named?_eq_some hname, ?_⟩
  unfold filter Dict.checkNamed
  rw [hname]
  rfl

theorem matched_context (hc : c.WellPosed) : c.context.matched = .ok c.selection :=
  Context.matched_eq (x := c.context) hc

/-- Of two dictionaries of conditions the second takes precedence over the first, and both over
what the criteria had. -/
theorem selection_withConditions (hc : c.WellPosed) (hd : Dict.Distinct c.selector)
    (hs : Selector.Proper s) (hk : Selector.Proper named) :
    ((c.withConditions s).withConditions named).selection = c.documents.filter fun d =>
      Selector.admits named d && Selector.admits (s.without named) d &&
        Selector.admits ((c.selector.without s).without named) d := by
  have hp : Selector.Proper c.selector := ⟨hc.names, hd⟩
  refine List.filter_congr fun d hdoc => ?_
  have hf := hc.sources d hdoc
  calc Selector.admits ((c.selector.merge s).merge named) d
      = (Selector.admits ((c.selector.merge s).without named) d &&
          Selector.admits named d) := Selector.admits_merge hf (hp.merge hs.names) hk
    _ = (Selector.admits ((c.selector.without s).without named) d &&
          Selector.admits (s.without named) d && Selector.admits named d) := by
        rw [Selector.admits_without_merge hf hp hs]
    _ = (Selector.admits named d && Selector.admits (s.without named) d &&
          Selector.admits ((c.selector.without s).without named) d) := by
        rw [Bool.and_comm, Bool.and_comm (Selector.admits (Dict.without _ _) d), Bool.and_assoc]

/-- Conditions on different fields can be added in either order. -/
theorem selection_comm (hc : c.WellPosed) (hd : Dict.Distinct c.selector)
    (hs : Selector.Proper s) (ht : Selector.Proper t) (h : s.Disjoint t) :
    ((c.withConditions t).withConditions s).selection =
      ((c.withConditions s).withConditions t).selection := by
  rw [selection_withConditions hc hd hs ht, selection_withConditions hc hd ht hs,
    Dict.without_of_disjoint h, Dict.without_of_disjoint h.symm, Dict.without_comm]
  exact List.filter_congr fun d _ => by rw [Bool.and_comm (Selector.admits s d)]

/-- Conditions that are added one dictionary after the other can be merged first. -/
theorem selection_merge (hc : c.WellPosed) (hd : Dict.Distinct c.selector)
    (hs : Selector.Proper s) (ht : Selector.Proper t) :
    (c.withConditions (s.merge t)).selection =
      ((c.withConditions s).withConditions t).selection := by
  rw [selection_withConditions hc hd hs ht]
  refine List.filter_congr fun d hdoc => ?_
  have hf := hc.sources d hdoc
  calc Selector.admits (c.selector.merge (s.merge t)) d
      = (Selector.admits (c.selector.without (s.merge t)) d &&
          Selector.admits (s.merge t) d) :=
        Selector.admits_merge hf ⟨hc.names, hd⟩ (hs.merge ht.names)
    _ = (Selector.admits ((c.selector.without s).without t) d &&
          (Selector.admits (s.without t) d && Selector.admits t d)) := by
        rw [Dict.without_merge, Selector.admits_merge hf hs ht]
    _ = (Selector.admits t d && Selector.admits (s.without t) d &&
          Selector.admits ((c.selector.without s).without t) d) := by
        rw [Bool.and_comm, Bool.and_comm (Selector.admits t d)]

/-- Conditions on fields that had none are added to those that were there. -/
theorem selection_sublist (hc : c.WellPosed) (hd : Dict.Distinct c.selector)
    (hs : Selector.Proper s) (hk : Selector.Proper named)
    (h : c.selector.Disjoint (s.merge named)) :
    ((c.withConditions s).withConditions named).selection.Sublist c.selection := by
  rw [selection_withConditions hc hd hs hk, ← Dict.without_merge, Dict.without_of_disjoint h]
  unfold selection
  rw [← List.filter_filter]
  exact List.filter_sublist

/-- Adding conditions is conjunction with override.  Of the conditions of one call the named ones
take precedence over the others, and both over those that were there; conditions on fields that had
none never match more.  The call fails just when a condition is named like one of its parameters.
Two calls match what one call with their conditions merged does, in either order when these name
different fields. -/
theorem filter_conjunction (hc : c.WellPosed) (hd : Dict.Distinct c.selector)
    (hs : Selector.Proper s) (ht : Selector.Proper t) :
    (Nameable t → ∃ next before after, c.filter (.dict s) t = .ok next ∧
      c.context.matched = .ok before ∧ next.context.matched = .ok after ∧
      (after = c.documents.filter fun d =>
        Selector.admits t d && Selector.admits (s.without t) d &&
          Selector.admits ((c.selector.without s).without t) d) ∧
      (c.selector.Disjoint (s.merge t) → after.Sublist before)) ∧
    (¬Nameable t → ∃ name ∈ filterParameters,
      c.filter (.dict s) t = .error (.repeatedArgument "Criteria.where" name)) ∧
    ∃ st once docs, (c.filter (.dict s) [] >>= fun next => next.filter (.dict t) []) = .ok st ∧
      c.filter (.dict (s.merge t)) [] = .ok once ∧
      st.context.matched = .ok docs ∧ once.context.matched = .ok docs ∧
      (s.Disjoint t → ∃ ts,
        (c.filter (.dict t) [] >>= fun next => next.filter (.dict s) []) = .ok ts ∧
          ts.context.matched = .ok docs) := by
  have hcs := wellPosed_withConditions hc hd hs.names
  have hct := wellPosed_withConditions hc hd ht.names
  have hst : ((c.withConditions s).withConditions t).WellPosed :=
    wellPosed_withConditions hcs (Dict.distinct_merge hd s) ht.names
  have hts : ((c.withConditions t).withConditions s).WellPosed :=
    wellPosed_withConditions hct (Dict.distinct_merge hd t) hs.names
  have honce : (c.withConditions (s.merge t)).WellPosed :=
    wellPosed_withConditions hc hd (hs.merge ht.names).names
  have hcalls : ∀ p q : Dict,
      (c.filter (.dict p) [] >>= fun next => next.filter (.dict q) []) =
        .ok ((c.withConditions p).withConditions q) := by
    intro p q
    rw [filter_dict c p nameable_nil]
    exact filter_dict (c.withConditions p) q nameable_nil
  refine ⟨fun hnames => ?_, filter_of_not_nameable c _, _, _, _, hcalls s t,
    filter_dict c _ nameable_nil, matched_context hst, ?_, fun h => ⟨_, hcalls t s, ?_⟩⟩
  · exact ⟨_, _, _, filter_dict c s hnames, matched_context hc, matched_context hst,
      selection_withConditions hc hd hs ht, selection_sublist hc hd hs ht⟩
  · rw [← selection_merge hc hd hs ht]
    exact matched_context honce
  · rw [← selection_comm hc hd hs ht h]
    exact matched_context hts

/-- Of three conditions on `x` and `y` the last on each counts, so one document is left that the
criteria did not match before.  A condition on `z`, which has none, can be added before those of
another call or after them, and never matches more, also together with one on `w`; one that is named
`self` is refused. -/
theorem filter_conjunction_overlap :
    let a : Value := .document [(.text "x", .text "1"), (.text "y", .text "1")]
    let b : Value := .document [(.text "x", .text "2"), (.text "y", .text "2")]
    let c : Criteria := { empty with documents := [a, b], selector := [(.text "x", .text "1")] }
    let s : Dict := [(.text "y", .text "1"), (.text "x", .text "2")]
    let t : Dict := [(.text "y", .text "2")]
    let r : Dict := [(.text "z", .null)]
    let q : Dict := [(.text "w", .null)]
    let p : Dict := [(.text "y", .null), (.text "self", .null)]
    c.context.matched = .ok [a] ∧
      (∃ next, c.filter (.dict s) t = .ok next ∧ next.context.matched = .ok [b]) ∧
      (∃ once, c.filter (.dict (s.merge t)) [] = .ok once ∧ once.context.matched = .ok [b]) ∧
      (∃ sr rs docs, (c.filter (.dict s) [] >>= fun next => next.filter (.dict r) []) = .ok sr ∧
        (c.filter (.dict r) [] >>= fun next => next.filter (.dict s) []) = .ok rs ∧
        sr.context.matched = .ok docs ∧ rs.context.matched = .ok docs) ∧
      (∃ added fewer, c.filter (.dict r) q = .ok added ∧ added.context.matched = .ok fewer ∧
        fewer.Sublist [a]) ∧
      ∃ name ∈ filterParameters,
        c.filter (.dict r) p = .error (.repeatedArgument "Criteria.where" name) := by
  intro a b c s t r q p
  have hc : c.WellPosed := by decide +kernel
  have hd : Dict.Distinct c.selector := by decide +kernel
  have hs : Selector.Proper s := by decide +kernel
  have ht : Selector.Proper t := by decide +kernel
  have hr : Selector.Proper r := by decide +kernel
  have hq : Selector.Proper q := by decide +kernel
  have hp : Selector.Proper p := by decide +kernel
  have hmatched : c.context.matched = .ok [a] := rfl
  obtain ⟨hcall, -, _, once, _, hst, honce, hdocs, hsame, -⟩ := filter_conjunction hc hd hs ht
  obtain ⟨next, _, after, hnext, -, hafter, hmatches, -⟩ := hcall (by decide +kernel)
  obtain ⟨-, -, sr, _, docs, hsr, -, hsrdocs, -, hswap⟩ := filter_conjunction hc hd hs hr
  obtain ⟨rs, hrs, hrsdocs⟩ := hswap (by decide +kernel)
  obtain ⟨hadd, -⟩ := filter_conjunction hc hd hr hq
  obtain ⟨added, before, fewer, hadded, hbefore, hfewer, -, hsub⟩ := hadd (by decide +kernel)
  obtain ⟨-, hself, -⟩ := filter_conjunction hc hd hr hp
  cases hmatched.symm.trans hbefore
  cases hst
  exact ⟨hmatched, ⟨next, hnext, hafter.trans (congrArg Except.ok hmatches)⟩,
    ⟨once, honce, hsame.trans (hdocs.symm.trans rfl)⟩, ⟨sr, rs, docs, hsr, hrs, hsrdocs, hrsdocs⟩,
    ⟨added, fewer, hadded, hfewer, hsub (by decide +kernel)⟩, hself (by decide +kernel)⟩

end Criteria
end RecordQuery
