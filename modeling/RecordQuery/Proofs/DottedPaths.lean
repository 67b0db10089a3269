import RecordQuery.Proofs.Matching

/-! # Dotted paths

A name may join keys by dots.  Cutting it at its dots gives these keys back (`joins_iff`): its
segments are the only keys without dots that it joins, empty ones included.  Following keys through
nested dictionaries reaches what stands there and nothing else (`follow_eq_some_iff`).

So what a document answers for a name can be said without the cutting: `Resolves` names the value
stored under the whole name or, where there is none, the value that the joined keys lead to.  The
main statement is `field_resolves`. -/

namespace RecordQuery

namespace Path

/-! ### Joining and cutting -/

/-- Whether a name joins keys by dots: there is at least one, and none has a dot in it. -/
structure Joins (keys : List String) (name : String) : Prop where
  nonempty : keys ≠ []
  dotFree : ∀ key ∈ keys, '.' ∉ key.toList
  joined : ".".intercalate keys = name

theorem cut_eq_splitOn (cs : List Char) : cut cs = cs.splitOn '.' := by
  induction cs with
  | nil => rfl
  | cons c cs ih =>
      rw [cut, List.splitOn_cons_eq_if_modifyHead, ih]
      by_cases hc : c = '.'
      · rw [if_pos hc, if_pos (beq_iff_eq.mpr hc)]
      · rw [if_neg hc, if_neg (by simpa using hc)]
        cases hcut : cs.splitOn '.' with
        | nil => exact absurd hcut (List.splitOn_ne_nil '.' cs)
        | cons segment segments => rfl

theorem not_mem_of_mem_cut (cs : List Char) : ∀ segment ∈ cut cs, '.' ∉ segment := by
  induction cs with
  | nil => exact List.forall_mem_singleton.mpr List.not_mem_nil
  | cons c cs ih =>
      rw [cut]
      split
      · exact List.forall_mem_cons.mpr ⟨List.not_mem_nil, ih⟩
      · rename_i hc
        have hcons : ∀ segment, '.' ∉ segment → '.' ∉ c :: segment := by
          intro segment hsegment
          rw [List.mem_cons, not_or]
          exact ⟨Ne.symm hc, hsegment⟩
        split
        · rename_i segment segments hcut
          rw [hcut, List.forall_mem_cons] at ih
          exact List.forall_mem_cons.mpr ⟨hcons segment ih.1, ih.2⟩
        · exact List.forall_mem_singleton.mpr (hcons [] List.not_mem_nil)

theorem map_toList_segments (name : String) :
    (segments name).map String.toList = name.toList.splitOn '.' := by
  rw [segments, List.map_map, ← cut_eq_splitOn]
  exact (List.map_congr_left fun cs _ => String.toList_ofList).trans (List.map_id _)

/-- A name joins its segments. -/
theorem joins_segments (name : String) : Joins (segments name) name where
  nonempty h := by
    have hsplit := map_toList_segments name
    rw [h] at hsplit
    exact List.splitOn_ne_nil '.' name.toList hsplit.symm
  dotFree key hkey := by
    obtain ⟨cs, hcs, rfl⟩ := List.mem_map.mp hkey
    rw [String.toList_ofList]
    exact not_mem_of_mem_cut _ cs hcs
  joined := by
    rw [← String.toList_inj, String.toList_intercalate, map_toList_segments]
    exact List.intercalate_splitOn '.'

/-- The keys that a name joins are its segments, and no others. -/
theorem joins_iff {keys : List String} {name : String} :
    Joins keys name ↔ keys = segments name := by
  constructor
  · rintro ⟨hne, hfree, rfl⟩
    have hsplit : (".".intercalate keys).toList.splitOn '.' = keys.map String.toList := by
      rw [String.toList_intercalate]
      refine List.splitOn_intercalate '.' ?_ (mt List.map_eq_nil_iff.mp hne)
      rw [List.forall_mem_map]
      exact hfree
    refine (List.map_inj_right fun s t => String.toList_inj.mp).mp ?_
    rw [map_toList_segments, hsplit]
  · rintro rfl
    exact joins_segments name

/-! ### Following keys -/

/-- Whether keys lead from a value through nested dictionaries to another value. -/
inductive Reaches : Value → List String → Value → Prop
  | here (v : Value) : Reaches v [] v
  | under {entries : Dict} {key : String} {keys : List String} {next v : Value}
      (hkey : Dict.get? entries (.text key) = some next) (h : Reaches next keys v) :
      Reaches (.dict entries) (key :: keys) v

theorem follow_eq_some_iff {v w : Value} {keys : List String} :
    follow v keys = some w ↔ Reaches v keys w := by
  induction keys generalizing v with
  | nil =>
      rw [follow, Option.some.injEq]
      constructor
      · rintro rfl
        exact .here v
      · intro h
        cases h
        rfl
  | cons key keys ih =>
      cases v with
      | dict entries =>
          rw [follow, Option.bind_eq_some_iff]
          constructor
          · rintro ⟨next, hkey, h⟩
            exact .under hkey (ih.mp h)
          · intro h
            cases h with
            | under hkey h => exact ⟨_, hkey, ih.mpr h⟩
      | _ => exact iff_of_false nofun (by intro h; cases h)

end Path

namespace Value

open RecordQuery.Path

/-- Whether a name stands for a value of a document with some fields: the value is stored under the
whole name or, where nothing is, the keys that the name joins lead to it. -/
inductive Resolves (fields : Dict) (name : String) (v : Value) : Prop
  | whole (h : Dict.get? fields (.text name) = some v)
  | joined {keys : List String} (hnone : Dict.get? fields (.text name) = none)
      (hkeys : Joins keys name) (h : Reaches (.dict fields) keys v)

theorem carried?_eq_some_iff {fields : Dict} {name : String} {v : Value} :
    (Value.document fields).carried? name = some v ↔ Resolves fields name v := by
  rw [carried?_document]
  cases hwhole : Dict.get? fields (.text name) with
  | some w =>
      rw [Option.some_or, ← hwhole]
      refine ⟨.whole, fun h => ?_⟩
      cases h with
      | whole h => exact h
      | joined hnone => rw [hwhole] at hnone; cases hnone
  | none =>
      rw [Option.none_or, follow_eq_some_iff]
      refine ⟨.joined hwhole (joins_segments name), fun h => ?_⟩
      cases h with
      | whole h => rw [hwhole] at h; cases h
      | joined _ hkeys h => rw [← joins_iff.mp hkeys]; exact h

/-- A document answers a name by the value that the name stands for, and by the default just when it
stands for none; what it stands for does not hang on the default.  So a value that dot-free keys
lead to is read back by the name that joins them, unless something is stored under this name. -/
theorem field_resolves (fields : Dict) (name : String) :
    ∃ found : Option Value, (∀ v, found = some v ↔ Resolves fields name v) ∧
      (∀ default, (Value.document fields).fieldOr (.text name) default =
        .ok (found.getD default)) ∧
      ∀ keys v, Joins keys name → Reaches (.dict fields) keys v →
        Dict.get? fields (.text name) = none →
        ∀ default, (Value.document fields).fieldOr (.text name) default = .ok v := by
  have hanswer := fieldOr_text (s := .document fields) rfl name
  refine ⟨_, fun v => carried?_eq_some_iff, hanswer, ?_⟩
  intro keys v hkeys hreach hnone default
  have hfound := carried?_eq_some_iff.mpr (.joined hnone hkeys hreach)
  rw [hanswer, hfound, Option.getD_some]

/-- A null under an empty key is found by the path through this key; an entry under a whole name
hides what the path of the same name leads to; and a path that ends at null and goes on has no
value. -/
theorem field_resolves_empty_key :
    let fields : Dict := [(.text "a", .dict [(.text "", .dict [(.text "b", .null),
      (.text "c", .text "below")])]), (.text "a..c", .text "above")]
    let d : Value := .document fields
    Joins ["a", "", "b"] "a..b" ∧ Reaches (.dict fields) ["a", "", "b"] .null ∧
      (∀ default, d.fieldOr (.text "a..b") default = .ok .null) ∧
      (∀ default, d.fieldOr (.text "a..c") default = .ok (.text "above")) ∧
      ∀ default, d.fieldOr (.text "a..b.c") default = .ok default := by
  intro fields d
  have hkeys : Joins ["a", "", "b"] "a..b" := ⟨by simp, by decide, by decide⟩
  have hreach : Reaches (.dict fields) ["a", "", "b"] .null :=
    .under rfl (.under rfl (.under rfl (.here .null)))
  refine ⟨hkeys, hreach, ?_, ?_, ?_⟩
  · obtain ⟨-, -, -, hread⟩ := field_resolves fields "a..b"
    exact hread _ _ hkeys hreach rfl
  · obtain ⟨found, hfound, hanswer, -⟩ := field_resolves fields "a..c"
    intro default
    rw [hanswer, (hfound (.text "above")).mpr (.whole rfl), Option.getD_some]
  · exact fun default => rfl

end Value
end RecordQuery
