import RecordQuery.Uuid

/-! # Reading an identifier from its digits

A text of hexadecimal digits and hyphens has none of what a lenient reader looks for: no marks, no
braces, no blanks, no sign.  So it spells the identifier whose number its digits stand for, wherever
the hyphens are and whichever case the digits have (`Uuid.ofChars?_of_digits`).  The canonical text
is one of them, and therefore it is read as the identifier that it was written for
(`Uuid.ofText?_text`). -/

namespace RecordQuery
namespace Text

/-! ### Digits -/

/-- Whether a character is a hexadecimal digit. -/
def isHex (c : Char) : Bool := (hexValue? c).isSome

/-- The number that hexadecimal digits stand for. -/
def hexNumber (cs : List Char) : Nat := cs.foldl (fun n c => 16 * n + (hexValue? c).getD 0) 0

theorem isHex_iff {c : Char} : isHex c = true ↔
    (48 ≤ c.toNat ∧ c.toNat ≤ 57) ∨ (97 ≤ c.toNat ∧ c.toNat ≤ 102) ∨
      (65 ≤ c.toNat ∧ c.toNat ≤ 70) := by
  unfold isHex hexValue?
  dsimp only
  split
  · exact iff_of_true rfl (.inl ‹_›)
  · split
    · exact iff_of_true rfl (.inr (.inl ‹_›))
    · split
      · exact iff_of_true rfl (.inr (.inr ‹_›))
      · exact iff_of_false Bool.false_ne_true (by omega)

/-- A digit is none of the characters that are no digits. -/
theorem ne_of_isHex {c d : Char} (hc : isHex c = true) (hd : isHex d = false) : c ≠ d := by
  rintro rfl
  rw [hc] at hd
  exact nomatch hd

theorem isBlank_of_isHex {c : Char} (h : isHex c = true) : isBlank c = false := by
  rw [isHex_iff] at h
  unfold isBlank
  simp
  omega

theorem digitValue?_of_isHex {c : Char} (h : isHex c = true) :
    digitValue? c = some ((hexValue? c).getD 0) := by
  obtain ⟨d, hd⟩ := Option.isSome_iff_exists.mp h
  unfold digitValue?
  rw [hd]
  rfl

theorem isHex_of_mem_writeHex {width n : Nat} {c : Char} (h : c ∈ writeHex width n) :
    isHex c = true := by
  induction width generalizing n with
  | zero => exact nomatch h
  | succ width ih =>
      rw [writeHex, List.mem_append, List.mem_singleton] at h
      rcases h with h | rfl
      · exact ih h
      · unfold isHex
        rw [hexValue?_hexDigit _ (Nat.mod_lt n (by decide))]
        rfl

/-- The last digits of a number stand for what is left of it modulo a power. -/
theorem hexNumber_writeHex (width n : Nat) :
    hexNumber (writeHex width n) = n % Nat.pow 16 width := by
  induction width generalizing n with
  | zero => exact (Nat.mod_one n).symm
  | succ width ih =>
      have hpow : Nat.pow 16 (width + 1) = 16 * Nat.pow 16 width := Nat.pow_succ'
      unfold hexNumber at ih ⊢
      rw [writeHex, List.foldl_append, ih, List.foldl_cons, List.foldl_nil,
        hexValue?_hexDigit _ (Nat.mod_lt n (by decide)), Option.getD_some, hpow, Nat.mod_mul]
      omega

/-! ### Numerals of digits alone -/

variable {cs : List Char}

theorem dropWhile_eq_self {p : Char → Bool} (h : ∀ c ∈ cs, p c = false) :
    cs.dropWhile p = cs := by
  cases cs with
  | nil => rfl
  | cons c cs =>
      rw [List.forall_mem_cons] at h
      rw [List.dropWhile_cons, h.1, if_neg Bool.false_ne_true]

/-- Nothing is trimmed from a text without the characters that are trimmed. -/
theorem trim_eq_self {p : Char → Bool} (h : ∀ c ∈ cs, p c = false) :
    ((cs.dropWhile p).reverse.dropWhile p).reverse = cs := by
  have hreverse : ∀ c ∈ cs.reverse, p c = false := fun c hc => h c (List.mem_reverse.mp hc)
  rw [dropWhile_eq_self h, dropWhile_eq_self hreverse, List.reverse_reverse]

theorem splitSign_of_isHex (h : ∀ c ∈ cs, isHex c = true) : splitSign cs = (false, cs) := by
  unfold splitSign
  split
  · exact absurd rfl (ne_of_isHex (h '-' List.mem_cons_self) (by decide))
  · exact absurd rfl (ne_of_isHex (h '+' List.mem_cons_self) (by decide))
  · rfl

theorem dropMark_of_isHex (h : ∀ c ∈ cs, isHex c = true) : dropMark cs = cs := by
  unfold dropMark
  split
  · rename_i zero x cs
    have hx : isHex x = true := h x (by simp)
    have hlower : (x == 'x') = false := beq_eq_false_iff_ne.mpr (ne_of_isHex hx (by decide))
    have hupper : (x == 'X') = false := beq_eq_false_iff_ne.mpr (ne_of_isHex hx (by decide))
    rw [hlower, hupper, Bool.or_false, Bool.and_false, if_neg Bool.false_ne_true]
  · rfl

theorem readDigits?_of_isHex (h : ∀ c ∈ cs, isHex c = true) (value : Nat) :
    readDigits? value cs = some (cs.foldl (fun n c => 16 * n + (hexValue? c).getD 0) value) := by
  induction cs generalizing value with
  | nil => rfl
  | cons c cs ih =>
      rw [List.forall_mem_cons] at h
      have hne : c ≠ '_' := ne_of_isHex h.1 (by decide)
      rw [readDigits?, digitValue?_of_isHex h.1, Option.bind_some, ih h.2, List.foldl_cons]
      exact fun _ _ hunderscore _ => hne hunderscore

theorem readUnsigned?_of_isHex (hne : cs ≠ []) (h : ∀ c ∈ cs, isHex c = true) :
    readUnsigned? cs = some (hexNumber cs) := by
  cases cs with
  | nil => exact absurd rfl hne
  | cons c cs =>
      rw [List.forall_mem_cons] at h
      rw [readUnsigned?, digitValue?_of_isHex h.1, Option.bind_some, readDigits?_of_isHex h.2]
      unfold hexNumber
      rw [List.foldl_cons, Nat.mul_zero, Nat.zero_add]

/-- Digits are read as the number they stand for. -/
theorem readHexNumeral?_of_isHex (hne : cs ≠ []) (h : ∀ c ∈ cs, isHex c = true) :
    readHexNumeral? cs = some (hexNumber cs : Int) := by
  have htrim : trimBlanks cs = cs := trim_eq_self fun c hc => isBlank_of_isHex (h c hc)
  unfold readHexNumeral?
  rw [htrim, splitSign_of_isHex h]
  dsimp only
  rw [dropMark_of_isHex h, readUnsigned?_of_isHex hne h]
  rfl

end Text

namespace Uuid

open Text

variable {cs : List Char} {u : Uuid}

/-! ### Texts of digits and hyphens -/

/-- A mark is not removed from a text that lacks one of its characters. -/
theorem removeMark_of_not_mem {mark : List Char} {c : Char} (hc : c ∈ mark) (h : c ∉ cs) :
    removeMark mark 0 cs = cs := by
  induction cs with
  | nil => rfl
  | cons d ds ih =>
      have hmark : mark.isPrefixOf (d :: ds) = false := by
        rw [Bool.eq_false_iff]
        intro hprefix
        exact h ((List.isPrefixOf_iff_prefix.mp hprefix).subset hc)
      rw [removeMark, hmark, if_neg Bool.false_ne_true,
        ih fun hmem => h (List.mem_cons_of_mem d hmem)]

theorem not_mem_of_digits (h : ∀ c ∈ cs, c = '-' ∨ isHex c = true) {d : Char} (hd : d ≠ '-')
    (hhex : isHex d = false) : d ∉ cs := by
  intro hmem
  rcases h d hmem with hhyphen | hdigit
  · exact hd hhyphen
  · exact ne_of_isHex hdigit hhex rfl

theorem isBrace_of_digits (h : ∀ c ∈ cs, c = '-' ∨ isHex c = true) :
    ∀ c ∈ cs, isBrace c = false := by
  intro c hc
  rw [Bool.eq_false_iff]
  intro hb
  unfold isBrace at hb
  rw [Bool.or_eq_true, beq_iff_eq, beq_iff_eq] at hb
  rcases hb with rfl | rfl
  · exact not_mem_of_digits h (d := '\x7b') (by decide) (by decide) hc
  · exact not_mem_of_digits h (d := '\x7d') (by decide) (by decide) hc

/-- Of a text of digits and hyphens, the digits remain. -/
theorem clean_of_digits (h : ∀ c ∈ cs, c = '-' ∨ isHex c = true) :
    clean cs = cs.filter (· != '-') := by
  have hcolon : ':' ∉ cs := not_mem_of_digits h (by decide) (by decide)
  unfold clean trimBraces
  dsimp only
  rw [removeMark_of_not_mem (c := ':') (by decide) hcolon,
    removeMark_of_not_mem (c := ':') (by decide) hcolon, trim_eq_self (isBrace_of_digits h)]

/-- A text of which 32 digits remain spells the identifier with the number of these. -/
theorem ofChars?_of_clean {body : List Char} (hclean : clean cs = body)
    (hhex : ∀ c ∈ body, isHex c = true) (hlength : body.length = 32)
    (hnumber : hexNumber body = u.bits.toNat) : ofChars? cs = some u := by
  have hnonempty : body ≠ [] := by
    rintro rfl
    exact nomatch hlength
  have hread : readHexNumeral? body = some (Int.ofNat u.bits.toNat) := by
    rw [readHexNumeral?_of_isHex hnonempty hhex, hnumber]
    rfl
  unfold ofChars?
  dsimp only
  rw [hclean, if_pos hlength, hread]
  dsimp only
  rw [if_pos u.bits.isLt, BitVec.ofNat_toNat]
  rfl

theorem isHex_of_mem_filter (h : ∀ c ∈ cs, c = '-' ∨ isHex c = true) {c : Char}
    (hc : c ∈ cs.filter (· != '-')) : isHex c = true := by
  obtain ⟨hmem, hne⟩ := List.mem_filter.mp hc
  exact (h c hmem).resolve_left (bne_iff_ne.mp hne)

/-- A text of 32 digits, with hyphens anywhere, spells the identifier with the number of its
digits. -/
theorem ofChars?_of_digits (h : ∀ c ∈ cs, c = '-' ∨ isHex c = true)
    (hlength : (cs.filter (· != '-')).length = 32)
    (hnumber : hexNumber (cs.filter (· != '-')) = u.bits.toNat) : ofChars? cs = some u :=
  ofChars?_of_clean (clean_of_digits h) (fun _ => isHex_of_mem_filter h) hlength hnumber

/-! ### The canonical text -/

theorem filter_hyphenate (groups : List Nat) (cs : List Char) :
    (hyphenate groups cs).filter (· != '-') = cs.filter (· != '-') := by
  induction groups generalizing cs with
  | nil => rfl
  | cons n groups ih =>
      rw [hyphenate, List.filter_append, List.filter_cons_of_neg (by decide), ih,
        ← List.filter_append, List.take_append_drop]

theorem mem_hyphenate {groups : List Nat} {c : Char} (h : c ∈ hyphenate groups cs) :
    c = '-' ∨ c ∈ cs := by
  induction groups generalizing cs with
  | nil => exact .inr h
  | cons n groups ih =>
      rw [hyphenate, List.mem_append, List.mem_cons] at h
      rcases h with h | rfl | h
      · exact .inr (List.mem_of_mem_take h)
      · exact .inl rfl
      · exact (ih h).imp_right List.mem_of_mem_drop

theorem isHex_of_mem_digits {c : Char} (h : c ∈ u.digits) : isHex c = true :=
  isHex_of_mem_writeHex h

theorem hexNumber_digits (u : Uuid) : hexNumber u.digits = u.bits.toNat := by
  unfold digits
  rw [hexNumber_writeHex]
  exact Nat.mod_eq_of_lt u.bits.isLt

theorem filter_chars (u : Uuid) : u.chars.filter (· != '-') = u.digits := by
  unfold chars
  rw [filter_hyphenate, List.filter_eq_self]
  intro c hc
  exact bne_iff_ne.mpr (ne_of_isHex (isHex_of_mem_digits hc) (by decide))

/-- The canonical text of an identifier is read as the identifier. -/
theorem ofText?_text (u : Uuid) : ofText? u.text = some u := by
  have hchars : ∀ c ∈ u.chars, c = '-' ∨ isHex c = true := fun c hc =>
    (mem_hyphenate hc).imp_right isHex_of_mem_digits
  unfold ofText? text
  rw [String.toList_ofList]
  refine ofChars?_of_digits hchars ?_ ?_
  · rw [filter_chars]
    exact length_writeHex 32 _
  · rw [filter_chars, hexNumber_digits]

end Uuid
end RecordQuery
