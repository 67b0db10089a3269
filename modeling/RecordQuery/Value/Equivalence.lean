import RecordQuery.Value.Same

/-! # Equality of values is an equivalence

`Value.same` compares unordered collections by marking.  `sameElements_unmarked_iff` and
`sameEntries_unmarked_iff` say what the marking decides: every element of each collection is the
same as one of the other.  With that, `same_refl`, `same_symm` and `same_trans` go by induction
over the parts of a value. -/

namespace RecordQuery

/-! ### Collections that cover each other -/

/-- Whether every element of each list is related to one of the other. -/
structure Covers {α : Type} (r : α → α → Prop) (xs ys : List α) : Prop where
  left : ∀ x ∈ xs, ∃ y, y ∈ ys ∧ r x y
  right : ∀ y ∈ ys, ∃ x, x ∈ xs ∧ r x y

theorem Covers.refl {α : Type} {r : α → α → Prop} {xs : List α} (h : ∀ x ∈ xs, r x x) :
    Covers r xs xs :=
  ⟨fun x hx => ⟨x, hx, h x hx⟩, fun x hx => ⟨x, hx, h x hx⟩⟩

theorem Covers.symm {α : Type} {r : α → α → Prop} {xs ys : List α}
    (h : ∀ x ∈ xs, ∀ y, r x y → r y x) (c : Covers r xs ys) : Covers r ys xs where
  left y hy := have ⟨x, hx, hr⟩ := c.right y hy; ⟨x, hx, h x hx y hr⟩
  right x hx := have ⟨y, hy, hr⟩ := c.left x hx; ⟨y, hy, h x hx y hr⟩

theorem Covers.trans {α : Type} {r : α → α → Prop} {xs ys zs : List α}
    (h : ∀ x ∈ xs, ∀ y z, r x y → r y z → r x z) (c : Covers r xs ys) (d : Covers r ys zs) :
    Covers r xs zs where
  left x hx :=
    have ⟨y, hy, hxy⟩ := c.left x hx
    have ⟨z, hz, hyz⟩ := d.left y hy
    ⟨z, hz, h x hx y z hxy hyz⟩
  right z hz :=
    have ⟨y, hy, hyz⟩ := d.right z hz
    have ⟨x, hx, hxy⟩ := c.right y hy
    ⟨x, hx, h x hx y z hxy hyz⟩

/-! ### Marks -/

theorem addMarks_map {α : Type} (marked : List (Bool × α)) (f : Bool × α → Bool) :
    addMarks marked (marked.map f) = marked.map fun m => (m.1 || f m, m.2) := by
  induction marked with
  | nil => rfl
  | cons m ms ih =>
    simp only [addMarks] at ih
    simp [addMarks, ih]

theorem exists_mem_map_iff {α β : Type} {l : List α} {f : α → β} {p : β → Prop} :
    (∃ y, y ∈ l.map f ∧ p y) ↔ ∃ x, x ∈ l ∧ p (f x) :=
  ⟨fun ⟨_, hy, hp⟩ => have ⟨x, hx, e⟩ := List.mem_map.1 hy; ⟨x, hx, e ▸ hp⟩,
    fun ⟨x, hx, hp⟩ => ⟨f x, List.mem_map_of_mem hx, hp⟩⟩

namespace Value

/-! ### Induction over parts -/

/-- A property of all values follows from its holding of a value whenever it holds of its parts. -/
theorem induction {motive : Value → Prop}
    (null : motive .null) (bool : ∀ b, motive (.bool b)) (number : ∀ n, motive (.number n))
    (text : ∀ s, motive (.text s)) (uuid : ∀ u, motive (.uuid u))
    (list : ∀ xs, (∀ x ∈ xs, motive x) → motive (.list xs))
    (tuple : ∀ xs, (∀ x ∈ xs, motive x) → motive (.tuple xs))
    (dict : ∀ es, (∀ e ∈ es, motive e.1 ∧ motive e.2) → motive (.dict es))
    (set : ∀ frozen xs, (∀ x ∈ xs, motive x) → motive (.set frozen xs))
    (arrangement : ∀ a, motive (.arrangement a))
    (document : ∀ es, (∀ e ∈ es, motive e.1 ∧ motive e.2) → motive (.document es))
    (record : ∀ ident size es, (∀ e ∈ es, motive e.1 ∧ motive e.2) →
      motive (.record ident size es)) (v : Value) : motive v :=
  Value.rec (motive_1 := motive) (motive_2 := fun xs => ∀ x ∈ xs, motive x)
    (motive_3 := fun es => ∀ e ∈ es, motive e.1 ∧ motive e.2) (motive_4 := fun _ => True)
    (motive_5 := fun e => motive e.1 ∧ motive e.2) (motive_6 := fun _ => True)
    null bool number text uuid list tuple dict set (fun a _ => arrangement a) document record
    (by simp) (fun x xs hx hxs => by simpa using ⟨hx, hxs⟩)
    (by simp) (fun e es he hes => by
      intro f hf
      rcases List.mem_cons.1 hf with rfl | hf
      · exact he
      · exact hes f hf)
    (fun _ _ _ => trivial) (fun _ _ h₁ h₂ => ⟨h₁, h₂⟩) trivial (fun _ _ _ => trivial)
    (fun _ => trivial) (fun _ => trivial) trivial v

/-! ### What the marking decides -/

theorem sameElements_iff {xs : List Value} {ys : List (Bool × Value)} :
    sameElements xs ys = true ↔
      (∀ x ∈ xs, ∃ y ∈ ys, x.same y.2 = true) ∧
        (∀ y ∈ ys, y.1 = true ∨ ∃ x ∈ xs, x.same y.2 = true) := by
  induction xs generalizing ys with
  | nil => simp [sameElements, allMarked]
  | cons x xs ih =>
    simp only [sameElements, addMarks_map, Bool.and_eq_true, ih, List.any_map, List.any_eq_true,
      Function.comp_apply, id_eq, List.mem_cons, exists_mem_map_iff,
      List.forall_mem_map, forall_eq_or_imp, exists_eq_or_imp, Bool.or_eq_true, and_assoc, or_assoc]

theorem sameEntries_iff {es : Dict} {fs : List (Bool × (Value × Value))} :
    sameEntries es fs = true ↔
      (∀ e ∈ es, ∃ f ∈ fs, e.1.same f.2.1 = true ∧ e.2.same f.2.2 = true) ∧
        (∀ f ∈ fs, f.1 = true ∨ ∃ e ∈ es, e.1.same f.2.1 = true ∧ e.2.same f.2.2 = true) := by
  induction es generalizing fs with
  | nil => simp [sameEntries, allMarked]
  | cons e es ih =>
    simp only [sameEntries, addMarks_map, Bool.and_eq_true, ih, List.any_map, List.any_eq_true,
      Function.comp_apply, id_eq, List.mem_cons, exists_mem_map_iff,
      List.forall_mem_map, forall_eq_or_imp, exists_eq_or_imp, Bool.or_eq_true, and_assoc, or_assoc]

/-- Whether two entries have the same key and the same value. -/
def SameEntry (e f : Value × Value) : Prop := e.1.same f.1 = true ∧ e.2.same f.2 = true

theorem sameElements_unmarked_iff {xs ys : List Value} :
    sameElements xs (unmarked ys) = true ↔ Covers (fun x y => x.same y = true) xs ys := by
  simp only [sameElements_iff, unmarked, exists_mem_map_iff,
    List.forall_mem_map, Bool.false_eq_true, false_or]
  exact ⟨fun h => ⟨h.1, h.2⟩, fun h => ⟨h.1, h.2⟩⟩

theorem sameEntries_unmarked_iff {es fs : Dict} :
    sameEntries es (unmarked fs) = true ↔ Covers SameEntry es fs := by
  simp only [sameEntries_iff, unmarked, exists_mem_map_iff,
    List.forall_mem_map, Bool.false_eq_true, false_or]
  exact ⟨fun h => ⟨h.1, h.2⟩, fun h => ⟨h.1, h.2⟩⟩

/-! ### Equality by the shape of the first value -/

theorem same_null_iff {w : Value} : same .null w = true ↔ w = .null := by
  cases w with
  | null => exact ⟨fun _ => rfl, fun _ => rfl⟩
  | _ => exact ⟨fun h => absurd h Bool.false_ne_true, nofun⟩

theorem same_bool (b : Bool) (w : Value) :
    same (.bool b) w = w.number?.any (Number.int (if b then 1 else 0)).same := by
  cases w <;> rfl

theorem same_bool_iff {b : Bool} {w : Value} :
    same (.bool b) w = true ↔
      ∃ n, w.number? = some n ∧ (Number.int (if b then 1 else 0)).identity = n.identity := by
  rw [same_bool]
  cases w.number? <;> simp [Number.same]

theorem same_number (m : Number) (w : Value) : same (.number m) w = w.number?.any m.same := by
  cases w <;> rfl

theorem same_number_iff {m : Number} {w : Value} :
    same (.number m) w = true ↔ ∃ n, w.number? = some n ∧ m.identity = n.identity := by
  rw [same_number]
  cases w.number? <;> simp [Number.same]

theorem same_text_iff {s : String} {w : Value} : same (.text s) w = true ↔ w = .text s := by
  cases w with
  | text t =>
    exact ⟨fun h => congrArg _ (eq_of_beq h).symm, fun h => by cases h; exact beq_self_eq_true s⟩
  | _ => exact ⟨fun h => absurd h Bool.false_ne_true, nofun⟩

theorem same_uuid_iff {u : Uuid} {w : Value} : same (.uuid u) w = true ↔ w = .uuid u := by
  cases w with
  | uuid t =>
    exact ⟨fun h => congrArg _ (eq_of_beq h).symm, fun h => by cases h; exact beq_self_eq_true u⟩
  | _ => exact ⟨fun h => absurd h Bool.false_ne_true, nofun⟩

theorem same_list_iff {xs : List Value} {w : Value} :
    same (.list xs) w = true ↔ ∃ ys, w = .list ys ∧ sameItems xs ys = true := by
  cases w with
  | list ys => exact ⟨fun h => ⟨ys, rfl, h⟩, fun ⟨_, e, h⟩ => by cases e; exact h⟩
  | _ => exact ⟨fun h => absurd h Bool.false_ne_true, nofun⟩

theorem same_tuple_iff {xs : List Value} {w : Value} :
    same (.tuple xs) w = true ↔ ∃ ys, w = .tuple ys ∧ sameItems xs ys = true := by
  cases w with
  | tuple ys => exact ⟨fun h => ⟨ys, rfl, h⟩, fun ⟨_, e, h⟩ => by cases e; exact h⟩
  | _ => exact ⟨fun h => absurd h Bool.false_ne_true, nofun⟩

theorem same_dict_iff {es : Dict} {w : Value} :
    same (.dict es) w = true ↔ ∃ fs, w = .dict fs ∧ Covers SameEntry es fs := by
  cases w with
  | dict fs =>
    exact ⟨fun h => ⟨fs, rfl, sameEntries_unmarked_iff.1 h⟩,
      fun ⟨_, e, h⟩ => by cases e; exact sameEntries_unmarked_iff.2 h⟩
  | _ => exact ⟨fun h => absurd h Bool.false_ne_true, nofun⟩

theorem same_set_iff {frozen : Bool} {xs : List Value} {w : Value} :
    same (.set frozen xs) w = true ↔
      ∃ other ys, w = .set other ys ∧ Covers (fun x y => x.same y = true) xs ys := by
  cases w with
  | set other ys =>
    exact ⟨fun h => ⟨other, ys, rfl, sameElements_unmarked_iff.1 h⟩,
      fun ⟨_, _, e, h⟩ => by cases e; exact sameElements_unmarked_iff.2 h⟩
  | _ => exact ⟨fun h => absurd h Bool.false_ne_true, nofun⟩

theorem same_document_iff {es : Dict} {w : Value} :
    same (.document es) w = true ↔ ∃ fs, w = .document fs ∧ Covers SameEntry es fs := by
  cases w with
  | document fs =>
    exact ⟨fun h => ⟨fs, rfl, sameEntries_unmarked_iff.1 h⟩,
      fun ⟨_, e, h⟩ => by cases e; exact sameEntries_unmarked_iff.2 h⟩
  | _ => exact ⟨fun h => absurd h Bool.false_ne_true, nofun⟩

theorem same_arrangement_iff {a : Arrangement Value} {w : Value} :
    same (.arrangement a) w = true ↔ ∃ b, w = .arrangement b ∧ a.ident = b.ident := by
  cases w with
  | arrangement b =>
    exact ⟨fun h => ⟨b, rfl, eq_of_beq h⟩, fun ⟨_, e, h⟩ => by cases e; exact beq_iff_eq.2 h⟩
  | _ => exact ⟨fun h => absurd h Bool.false_ne_true, nofun⟩

theorem same_record_iff {i n : Nat} {es : Dict} {w : Value} :
    same (.record i n es) w = true ↔ ∃ m fs, w = .record i m fs := by
  cases w with
  | record j m fs =>
    exact ⟨fun h => ⟨m, fs, by rw [eq_of_beq h]⟩,
      fun ⟨_, _, e⟩ => by cases e; exact beq_self_eq_true i⟩
  | _ => exact ⟨fun h => absurd h Bool.false_ne_true, nofun⟩

/-! ### Equivalence -/

theorem sameItems_refl {xs : List Value} (h : ∀ x ∈ xs, x.same x = true) :
    sameItems xs xs = true := by
  induction xs with
  | nil => rfl
  | cons x xs ih =>
    exact Bool.and_eq_true_iff.2 ⟨h x (by simp), ih fun y hy => h y (by simp [hy])⟩

theorem same_refl (v : Value) : v.same v = true := by
  induction v using induction with
  | null => rfl
  | bool b => exact same_bool_iff.2 ⟨_, rfl, rfl⟩
  | number n => exact same_number_iff.2 ⟨_, rfl, rfl⟩
  | text s => exact same_text_iff.2 rfl
  | uuid u => exact same_uuid_iff.2 rfl
  | list xs ih => exact same_list_iff.2 ⟨xs, rfl, sameItems_refl ih⟩
  | tuple xs ih => exact same_tuple_iff.2 ⟨xs, rfl, sameItems_refl ih⟩
  | dict es ih => exact same_dict_iff.2 ⟨es, rfl, .refl ih⟩
  | document es ih => exact same_document_iff.2 ⟨es, rfl, .refl ih⟩
  | set frozen xs ih => exact same_set_iff.2 ⟨frozen, xs, rfl, .refl ih⟩
  | arrangement a => exact same_arrangement_iff.2 ⟨a, rfl, rfl⟩
  | record i n es ih => exact same_record_iff.2 ⟨n, es, rfl⟩

theorem sameItems_symm {xs ys : List Value}
    (h : ∀ x ∈ xs, ∀ y, x.same y = true → y.same x = true) (hs : sameItems xs ys = true) :
    sameItems ys xs = true := by
  induction xs generalizing ys with
  | nil =>
    cases ys with
    | nil => rfl
    | cons y ys => exact absurd hs Bool.false_ne_true
  | cons x xs ih =>
    cases ys with
    | nil => exact absurd hs Bool.false_ne_true
    | cons y ys =>
      have hs := Bool.and_eq_true_iff.1 hs
      exact Bool.and_eq_true_iff.2
        ⟨h x (by simp) y hs.1, ih (fun x hx => h x (by simp [hx])) hs.2⟩

theorem number?_of_same {v w : Value} {m : Number} (hv : v.number? = some m)
    (h : v.same w = true) : ∃ n, w.number? = some n ∧ m.identity = n.identity := by
  cases v with
  | bool b => cases hv; exact same_bool_iff.1 h
  | number n => cases hv; exact same_number_iff.1 h
  | _ => exact nomatch hv

theorem same_of_number? {v w : Value} {m n : Number} (hv : v.number? = some m)
    (hw : w.number? = some n) (h : m.identity = n.identity) : v.same w = true := by
  cases v with
  | bool b => cases hv; exact same_bool_iff.2 ⟨n, hw, h⟩
  | number k => cases hv; exact same_number_iff.2 ⟨n, hw, h⟩
  | _ => exact nomatch hv

theorem same_symm {v w : Value} (h : v.same w = true) : w.same v = true := by
  induction v using induction generalizing w with
  | null => obtain rfl := same_null_iff.1 h; exact h
  | bool b =>
    obtain ⟨n, hw, hn⟩ := same_bool_iff.1 h
    exact same_of_number? hw rfl hn.symm
  | number m =>
    obtain ⟨n, hw, hn⟩ := same_number_iff.1 h
    exact same_of_number? hw rfl hn.symm
  | text s => obtain rfl := same_text_iff.1 h; exact h
  | uuid u => obtain rfl := same_uuid_iff.1 h; exact h
  | list xs ih =>
    obtain ⟨ys, rfl, hs⟩ := same_list_iff.1 h
    exact same_list_iff.2 ⟨xs, rfl, sameItems_symm (fun x hx y => ih x hx) hs⟩
  | tuple xs ih =>
    obtain ⟨ys, rfl, hs⟩ := same_tuple_iff.1 h
    exact same_tuple_iff.2 ⟨xs, rfl, sameItems_symm (fun x hx y => ih x hx) hs⟩
  | dict es ih =>
    obtain ⟨fs, rfl, hc⟩ := same_dict_iff.1 h
    exact same_dict_iff.2
      ⟨es, rfl, hc.symm fun e he f hf => ⟨(ih e he).1 hf.1, (ih e he).2 hf.2⟩⟩
  | document es ih =>
    obtain ⟨fs, rfl, hc⟩ := same_document_iff.1 h
    exact same_document_iff.2
      ⟨es, rfl, hc.symm fun e he f hf => ⟨(ih e he).1 hf.1, (ih e he).2 hf.2⟩⟩
  | set frozen xs ih =>
    obtain ⟨other, ys, rfl, hc⟩ := same_set_iff.1 h
    exact same_set_iff.2 ⟨frozen, xs, rfl, hc.symm fun x hx y hy => ih x hx hy⟩
  | arrangement a =>
    obtain ⟨b, rfl, hb⟩ := same_arrangement_iff.1 h
    exact same_arrangement_iff.2 ⟨a, rfl, hb.symm⟩
  | record i n es ih =>
    obtain ⟨m, fs, rfl⟩ := same_record_iff.1 h
    exact same_record_iff.2 ⟨n, es, rfl⟩

theorem sameItems_trans {xs ys zs : List Value}
    (h : ∀ x ∈ xs, ∀ y z, x.same y = true → y.same z = true → x.same z = true)
    (hxy : sameItems xs ys = true) (hyz : sameItems ys zs = true) : sameItems xs zs = true := by
  induction xs generalizing ys zs with
  | nil =>
    cases ys with
    | nil => exact hyz
    | cons y ys => exact absurd hxy Bool.false_ne_true
  | cons x xs ih =>
    cases ys with
    | nil => exact absurd hxy Bool.false_ne_true
    | cons y ys =>
      cases zs with
      | nil => exact absurd hyz Bool.false_ne_true
      | cons z zs =>
        have hxy := Bool.and_eq_true_iff.1 hxy
        have hyz := Bool.and_eq_true_iff.1 hyz
        exact Bool.and_eq_true_iff.2
          ⟨h x (by simp) y z hxy.1 hyz.1, ih (fun x hx => h x (by simp [hx])) hxy.2 hyz.2⟩

theorem same_trans {u v w : Value} (huv : u.same v = true) (hvw : v.same w = true) :
    u.same w = true := by
  induction u using induction generalizing v w with
  | null => obtain rfl := same_null_iff.1 huv; exact hvw
  | bool b =>
    obtain ⟨n, hv, hn⟩ := same_bool_iff.1 huv
    obtain ⟨m, hw, hm⟩ := number?_of_same hv hvw
    exact same_bool_iff.2 ⟨m, hw, hn.trans hm⟩
  | number m =>
    obtain ⟨n, hv, hn⟩ := same_number_iff.1 huv
    obtain ⟨m, hw, hm⟩ := number?_of_same hv hvw
    exact same_number_iff.2 ⟨m, hw, hn.trans hm⟩
  | text s => obtain rfl := same_text_iff.1 huv; exact hvw
  | uuid s => obtain rfl := same_uuid_iff.1 huv; exact hvw
  | list xs ih =>
    obtain ⟨ys, rfl, hxy⟩ := same_list_iff.1 huv
    obtain ⟨zs, rfl, hyz⟩ := same_list_iff.1 hvw
    exact same_list_iff.2 ⟨zs, rfl, sameItems_trans (fun x hx y z => ih x hx) hxy hyz⟩
  | tuple xs ih =>
    obtain ⟨ys, rfl, hxy⟩ := same_tuple_iff.1 huv
    obtain ⟨zs, rfl, hyz⟩ := same_tuple_iff.1 hvw
    exact same_tuple_iff.2 ⟨zs, rfl, sameItems_trans (fun x hx y z => ih x hx) hxy hyz⟩
  | dict es ih =>
    obtain ⟨fs, rfl, hef⟩ := same_dict_iff.1 huv
    obtain ⟨gs, rfl, hfg⟩ := same_dict_iff.1 hvw
    exact same_dict_iff.2 ⟨gs, rfl,
      hef.trans (fun e he f g hf hg => ⟨(ih e he).1 hf.1 hg.1, (ih e he).2 hf.2 hg.2⟩) hfg⟩
  | document es ih =>
    obtain ⟨fs, rfl, hef⟩ := same_document_iff.1 huv
    obtain ⟨gs, rfl, hfg⟩ := same_document_iff.1 hvw
    exact same_document_iff.2 ⟨gs, rfl,
      hef.trans (fun e he f g hf hg => ⟨(ih e he).1 hf.1 hg.1, (ih e he).2 hf.2 hg.2⟩) hfg⟩
  | set frozen xs ih =>
    obtain ⟨_, ys, rfl, hxy⟩ := same_set_iff.1 huv
    obtain ⟨other, zs, rfl, hyz⟩ := same_set_iff.1 hvw
    exact same_set_iff.2 ⟨other, zs, rfl, hxy.trans (fun x hx y z => ih x hx) hyz⟩
  | arrangement a =>
    obtain ⟨b, rfl, hb⟩ := same_arrangement_iff.1 huv
    obtain ⟨c, rfl, hc⟩ := same_arrangement_iff.1 hvw
    exact same_arrangement_iff.2 ⟨c, rfl, hb.trans hc⟩
  | record i n es ih =>
    obtain ⟨m, fs, rfl⟩ := same_record_iff.1 huv
    exact same_record_iff.2 (same_record_iff.1 hvw)

end Value
end RecordQuery
