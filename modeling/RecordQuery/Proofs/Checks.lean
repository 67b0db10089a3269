import Mathlib.Logic.Function.Basic
import RecordQuery.Proofs.Reachable

/-! # What passes the checks of options

A value passes a check just when it is null or what the check asks for, and what is kept is the
value itself (`check_eq_ok_iff`): a truth value is no integer and is never kept as one.  So checked
options can be shown as the values they come from (`Options.value`), and these pass again.

`Options.replace` puts another value in the place of one option and checks all four anew.  Of
options that have passed before, only the new value can fail (`replace_skip` and its like). -/

namespace RecordQuery

namespace Value

/-- A count as the value it comes from, null where there is none. -/
def ofCount : Option Int → Value
  | some n => .int n
  | none => .null

/-- An arrangement as the value it comes from, null where there is none. -/
def ofOrdering : Option (Arrangement Value) → Value
  | some a => .arrangement a
  | none => .null

theorem int?_eq_some_iff {v : Value} {n : Int} : v.int? = some n ↔ v = .int n := by
  constructor
  · intro h
    cases v with
    | number m =>
        cases m with
        | int k => rw [Option.some.inj h]
        | float x => exact nomatch h
    | _ => exact nomatch h
  · rintro rfl
    rfl

end Value

namespace Options

open Value (ofCount ofOrdering)

/-! ### One option -/

/-- A value passes as a count just when it is null or an integer that is large enough. -/
theorem checkCount_eq_ok_iff {name explanation : String} {least : Int} {v : Value}
    {count : Option Int} : checkCount name explanation least v = .ok count ↔
      v = ofCount count ∧ ∀ n, count = some n → least ≤ n := by
  constructor
  · intro h
    refine ⟨?_, fun n hn => le_of_checkCount (hn ▸ h)⟩
    unfold checkCount at h
    split at h
    · cases h
      rfl
    · split at h
      · rename_i n hn
        split at h
        · cases h
          exact Value.int?_eq_some_iff.mp hn
        · cases h
      · cases h
  · rintro ⟨rfl, hleast⟩
    cases count with
    | none => rfl
    | some n =>
        show (if least ≤ n then _ else _) = _
        rw [if_pos (hleast n rfl)]

/-- A value passes as an ordering just when it is null or an arrangement. -/
theorem checkSort_eq_ok_iff {v : Value} {sort : Option (Arrangement Value)} :
    checkSort v = .ok sort ↔ v = ofOrdering sort := by
  constructor
  · intro h
    unfold checkSort at h
    split at h
    · cases h
      rfl
    · cases h
      rfl
    · cases h
  · rintro rfl
    cases sort <;> rfl

/-! ### All options -/

/-- The name of an option. -/
inductive Name where
  | skip
  | limit
  | sort
  | fields
  deriving DecidableEq, Repr

/-- An option as a value, null where it is not set. -/
def value (o : Options) : Name → Value
  | .skip => ofCount o.skip
  | .limit => ofCount o.limit
  | .sort => ofOrdering o.sort
  | .fields => .tuple o.fields

/-- Checks options that are given by name. -/
def checkAll (values : Name → Value) : Except Fault Options :=
  check (values .skip) (values .limit) (values .sort) (values .fields)

/-- The options with another value for one of them, where all are checked anew. -/
def replace (o : Options) (name : Name) (v : Value) : Except Fault Options :=
  checkAll (Function.update o.value name v)

theorem Valid.checkSkip_value {o : Options} (hv : o.Valid) :
    checkSkip (o.value .skip) = .ok o.skip :=
  checkCount_eq_ok_iff.mpr ⟨rfl, hv.skip_nonneg⟩

theorem Valid.checkLimit_value {o : Options} (hv : o.Valid) :
    checkLimit (o.value .limit) = .ok o.limit :=
  checkCount_eq_ok_iff.mpr ⟨rfl, hv.limit_pos⟩

theorem checkSort_value (o : Options) : checkSort (o.value .sort) = .ok o.sort :=
  checkSort_eq_ok_iff.mpr rfl

/-- Values pass the checks just when they are those of valid options, the projection apart, which
may be anything with the same elements. -/
theorem check_eq_ok_iff {skip limit sort fields : Value} {o : Options} :
    check skip limit sort fields = .ok o ↔
      skip = o.value .skip ∧ limit = o.value .limit ∧ sort = o.value .sort ∧
        fields.items = .ok o.fields ∧ o.Valid := by
  constructor
  · intro h
    have hv := Valid.of_check h
    obtain ⟨s, hs, h⟩ := exists_of_bind_eq_ok h
    obtain ⟨l, hl, h⟩ := exists_of_bind_eq_ok h
    obtain ⟨a, ha, h⟩ := exists_of_bind_eq_ok h
    obtain ⟨fs, hfs, h⟩ := exists_of_bind_eq_ok h
    cases h
    exact ⟨(checkCount_eq_ok_iff.mp hs).1, (checkCount_eq_ok_iff.mp hl).1,
      checkSort_eq_ok_iff.mp ha, hfs, hv⟩
  · rintro ⟨rfl, rfl, rfl, hfields, hv⟩
    unfold check
    rw [hv.checkSkip_value, hv.checkLimit_value, checkSort_value, hfields]
    rfl

/-! ### Another value for one option -/

variable {o : Options}

theorem Valid.replace_skip (hv : o.Valid) (v : Value) :
    o.replace .skip v = (checkSkip v).map fun skip => { o with skip } := by
  show check v (o.value .limit) (o.value .sort) (o.value .fields) = _
  unfold check
  rw [hv.checkLimit_value, checkSort_value]
  cases checkSkip v <;> rfl

theorem Valid.replace_limit (hv : o.Valid) (v : Value) :
    o.replace .limit v = (checkLimit v).map fun limit => { o with limit } := by
  show check (o.value .skip) v (o.value .sort) (o.value .fields) = _
  unfold check
  rw [hv.checkSkip_value, checkSort_value]
  cases checkLimit v <;> rfl

theorem Valid.replace_sort (hv : o.Valid) (v : Value) :
    o.replace .sort v = (checkSort v).map fun sort => { o with sort } := by
  show check (o.value .skip) (o.value .limit) v (o.value .fields) = _
  unfold check
  rw [hv.checkSkip_value, hv.checkLimit_value]
  cases checkSort v <;> rfl

theorem Valid.replace_fields (hv : o.Valid) (fields : List Value) :
    o.replace .fields (.tuple fields) = .ok { o with fields } := by
  show check (o.value .skip) (o.value .limit) (o.value .sort) (.tuple fields) = _
  unfold check
  rw [hv.checkSkip_value, hv.checkLimit_value, checkSort_value]
  rfl

end Options

/-! ### Extras -/

namespace Extras

/-- The page that is asked for as a value, null where there is none. -/
def pageValue (e : Extras) : Value := .ofCount e.page

/-- A value passes as the number of a page just when it is null or an integer. -/
theorem check_eq_ok_iff {v : Value} {e : Extras} : check v = .ok e ↔ v = e.pageValue := by
  constructor
  · intro h
    unfold check at h
    split at h
    · cases h
      rfl
    · split at h
      · rename_i n hn
        cases h
        exact Value.int?_eq_some_iff.mp hn
      · cases h
  · rintro rfl
    obtain ⟨page⟩ := e
    cases page <;> rfl

end Extras
end RecordQuery
