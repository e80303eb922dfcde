import CalcWatch.Text
import Mathlib.Data.List.Basic
import Mathlib.Tactic.IntervalCases

/-!
# Numerals are faithful

A number can be read back from its text, whatever the way it was written: the value of the digits is
the number, zeros in front do not change it, and every digit has a character of its own. So each of
the ways to write a number is injective, and two numbers with the same numeral are the same.

A numeral has no punctuation, so a text that begins with one falls apart at the punctuation mark
behind it in one way only. This is what tells the operands of an assembly text from each other and a
number in a stored text from what follows it.

## Digits

A character is a digit with a value if it stands at that place of one of two alphabets, which is
`IsDigit` and does not depend on how characters are read. What is written and what is read both agree
with it: `isDigit_iff` says that a digit is one of the two characters that are written for its value,
and `digitIn?_eq_some_iff` that these are the characters that are read. What holds of every digit of
a numeral follows from there, since a numeral is its digits written one after the other.
-/

namespace CalcWatch.Text

/-! ## Digits -/

theorem lt_of_mem_digitsRev {base : ℕ} (hbase : 0 < base) {fuel n d : ℕ}
    (hd : d ∈ digitsRev base fuel n) : d < base := by
  induction fuel generalizing n with
  | zero => simp [digitsRev] at hd
  | succ fuel ih =>
    rw [digitsRev] at hd
    split at hd
    · rename_i hn
      rwa [List.mem_singleton.mp hd]
    · rcases List.mem_cons.mp hd with rfl | hd
      · exact Nat.mod_lt n hbase
      · exact ih hd

theorem lt_of_mem_digits {base : ℕ} (hbase : 0 < base) {n d : ℕ} (hd : d ∈ digits base n) :
    d < base :=
  lt_of_mem_digitsRev hbase (List.mem_reverse.mp hd)

/-- A number other than zero does not begin with a zero. -/
theorem exists_leading_digit {base fuel n : ℕ} (hbase : 2 ≤ base) (hn : n ≠ 0) (hfuel : n < fuel) :
    ∃ ds d, digitsRev base fuel n = ds ++ [d] ∧ d ≠ 0 := by
  induction fuel generalizing n with
  | zero => exact absurd hfuel n.not_lt_zero
  | succ fuel ih =>
    rw [digitsRev]
    split
    · exact ⟨[], n, rfl, hn⟩
    · rename_i hlarge
      have hquot : n / base ≠ 0 := (Nat.div_pos (Nat.le_of_not_lt hlarge) (by omega)).ne'
      have hless : n / base < n := Nat.div_lt_self (Nat.pos_of_ne_zero hn) hbase
      obtain ⟨ds, d, hdigits, hd⟩ := ih hquot (by omega)
      exact ⟨n % base :: ds, d, by rw [hdigits, List.cons_append], hd⟩

theorem valueRev_replicate_zero (base k : ℕ) : valueRev base (List.replicate k 0) = 0 := by
  induction k with
  | zero => rfl
  | succ k ih => rw [List.replicate_succ, valueRev, ih]; rfl

theorem valueRev_append_zeros (base : ℕ) (ds : List ℕ) (k : ℕ) :
    valueRev base (ds ++ List.replicate k 0) = valueRev base ds := by
  induction ds with
  | nil => exact valueRev_replicate_zero base k
  | cons d ds ih => rw [List.cons_append, valueRev, ih, valueRev]

/-! ## Characters -/

/-- The character is a digit and has this value. Digits from ten on have either case. -/
def IsDigit (c : Char) (d : ℕ) : Prop :=
  "0123456789abcdef".toList[d]? = some c ∨ "0123456789ABCDEF".toList[d]? = some c

theorem digitValue?_upperDigit {d : ℕ} (hd : d < 16) : digitValue? (upperDigit d) = some d := by
  interval_cases d <;> rfl

theorem digitValue?_lowerDigit {d : ℕ} (hd : d < 16) : digitValue? (lowerDigit d) = some d := by
  interval_cases d <;> rfl

section

variable {base d : ℕ} {c : Char}

theorem isDigit_iff : IsDigit c d ↔ d < 16 ∧ (c = lowerDigit d ∨ c = upperDigit d) := by
  have hdigits : ∀ d < 16, "0123456789abcdef".toList[d]? = some (lowerDigit d) ∧
      "0123456789ABCDEF".toList[d]? = some (upperDigit d) := by decide
  constructor
  · intro h
    have hlt : d < 16 := by
      rcases h with h | h <;> exact (List.getElem?_eq_some_iff.mp h).1
    rw [IsDigit, (hdigits d hlt).1, (hdigits d hlt).2, Option.some.injEq, Option.some.injEq] at h
    exact ⟨hlt, h.imp Eq.symm Eq.symm⟩
  · rintro ⟨hlt, rfl | rfl⟩
    · exact .inl (hdigits d hlt).1
    · exact .inr (hdigits d hlt).2

theorem digitValue?_eq_some_iff : digitValue? c = some d ↔ IsDigit c d := by
  rw [isDigit_iff]
  constructor
  · intro h
    have hcode : c.toNat = 48 + d ∧ d < 10 ∨ c.toNat = 55 + d ∧ 10 ≤ d ∧ d < 16 ∨
        c.toNat = 87 + d ∧ 10 ≤ d ∧ d < 16 := by
      simp only [digitValue?] at h
      split_ifs at h <;> cases h <;> omega
    rw [← Char.ofNat_toNat c, lowerDigit, upperDigit]
    rcases hcode with ⟨hc, hd⟩ | ⟨hc, hd⟩ | ⟨hc, hd⟩
    · exact ⟨by omega, .inl (by rw [hc, if_pos hd])⟩
    · exact ⟨hd.2, .inr (by rw [hc, if_neg (by omega)])⟩
    · exact ⟨hd.2, .inl (by rw [hc, if_neg (by omega)])⟩
  · rintro ⟨hlt, rfl | rfl⟩
    · exact digitValue?_lowerDigit hlt
    · exact digitValue?_upperDigit hlt

theorem digitIn?_eq_some_iff : digitIn? base c = some d ↔ IsDigit c d ∧ d < base := by
  rw [digitIn?, Option.filter_eq_some_iff, digitValue?_eq_some_iff, decide_eq_true_iff]

theorem digitIn?_upperDigit (hd : d < 10) : digitIn? 10 (upperDigit d) = some d :=
  digitIn?_eq_some_iff.mpr ⟨isDigit_iff.mpr ⟨by omega, .inr rfl⟩, hd⟩

theorem eq_upperDigit_of_digitIn? (h : digitIn? 10 c = some d) : d < 10 ∧ c = upperDigit d := by
  obtain ⟨hdigit, hlt⟩ := digitIn?_eq_some_iff.mp h
  have hcases : upperDigit d = lowerDigit d := by
    rw [upperDigit, lowerDigit, if_pos hlt, if_pos hlt]
  rcases (isDigit_iff.mp hdigit).2 with hc | hc
  · exact ⟨hlt, hc.trans hcases.symm⟩
  · exact ⟨hlt, hc⟩

end

private theorem map_digitValue? {ds : List ℕ} (hds : ∀ d ∈ ds, d < 16) :
    (ds.map upperDigit).map digitValue? = ds.map some := by
  rw [List.map_map]
  exact List.map_congr_left fun d hd ↦ digitValue?_upperDigit (hds d hd)

/-- The characters of a number with zeros in front. -/
private def numeral (base zeros n : ℕ) : List Char :=
  (List.replicate zeros 0 ++ digits base n).map upperDigit

private theorem numeral_inj (base : ℕ) (hbase : 2 ≤ base) (hbase' : base ≤ 16) {j k m n : ℕ}
    (h : numeral base j m = numeral base k n) : m = n := by
  have hlt : ∀ i n, ∀ d ∈ List.replicate i 0 ++ digits base n, d < 16 := by
    intro i n d hd
    rcases List.mem_append.mp hd with hd | hd
    · rw [List.eq_of_mem_replicate hd]
      decide
    · exact (lt_of_mem_digits (by omega) hd).trans_le hbase'
  have hvalue : ∀ i n, valueRev base (List.replicate i 0 ++ digits base n).reverse = n := by
    intro i n
    rw [List.reverse_append, digits, List.reverse_reverse, List.reverse_replicate,
      valueRev_append_zeros, valueRev_digitsRev hbase n.lt_succ_self]
  have hdigits : List.replicate j 0 ++ digits base m = List.replicate k 0 ++ digits base n := by
    have hread := congrArg (List.map digitValue?) h
    rw [numeral, numeral, map_digitValue? (hlt j m), map_digitValue? (hlt k n)] at hread
    exact List.map_injective_iff.mpr (Option.some_injective ℕ) hread
  rw [← hvalue j m, hdigits, hvalue k n]

/-! ## The ways to write a number -/

theorem toList_decimal (n : ℕ) : (decimal n).toList = (digits 10 n).map upperDigit := by
  rw [decimal, String.toList_ofList]

private theorem toList_decimal_eq_numeral (n : ℕ) : (decimal n).toList = numeral 10 0 n := by
  rw [toList_decimal, numeral, List.replicate_zero, List.nil_append]

private theorem toList_hex (width n : ℕ) :
    (hex width n).toList = numeral 16 (width - (digits 16 n).length) n := by
  rw [hex, String.toList_ofList, padded, numeral, List.map_append, List.map_replicate,
    List.length_map]
  rfl

theorem decimal_injective : Function.Injective decimal := by
  intro m n h
  have htext : numeral 10 0 m = numeral 10 0 n := by
    rw [← toList_decimal_eq_numeral, h, toList_decimal_eq_numeral]
  exact numeral_inj 10 (by decide) (by decide) htext

theorem hex_injective (width : ℕ) : Function.Injective (hex width) := by
  intro m n h
  have htext := toList_hex width m
  rw [h, toList_hex] at htext
  exact numeral_inj 16 (by decide) (by decide) htext.symm

theorem address_injective : Function.Injective address := by
  intro m n h
  exact hex_injective 4 ((String.append_right_inj "0x").mp h)

theorem explicitlySigned_injective : Function.Injective explicitlySigned := by
  have hsign : ∀ m n, "+" ++ decimal m ≠ "-" ++ decimal n := by
    intro m n h
    have hhead := congrArg (·.toList.head?) h
    simp at hhead
  rintro (m | m) (n | n) h
  · rw [decimal_injective ((String.append_right_inj "+").mp h)]
  · exact absurd h (hsign m (n + 1))
  · exact absurd h.symm (hsign n (m + 1))
  · have hsucc : m + 1 = n + 1 := decimal_injective ((String.append_right_inj "-").mp h)
    rw [Nat.succ_injective hsucc]

theorem decimal_of_ne_zero {n : ℕ} (hn : n ≠ 0) :
    ∃ c cs, (decimal n).toList = c :: cs ∧ c ≠ '0' := by
  obtain ⟨ds, d, hdigits, hd⟩ := exists_leading_digit (Nat.le_add_left 2 8) hn n.lt_succ_self
  have hlt : d < 10 := lt_of_mem_digitsRev (by decide)
    (hdigits ▸ List.mem_append_right ds List.mem_cons_self)
  refine ⟨upperDigit d, ds.reverse.map upperDigit, ?_, ?_⟩
  · rw [toList_decimal, digits, hdigits, List.reverse_append]
    rfl
  · interval_cases d <;> first | contradiction | decide

theorem exists_digit_of_mem_decimal {n : ℕ} {c : Char} (h : c ∈ (decimal n).toList) :
    ∃ d < 10, c = upperDigit d := by
  rw [toList_decimal] at h
  obtain ⟨d, hd, rfl⟩ := List.mem_map.mp h
  exact ⟨d, lt_of_mem_digits (by decide) hd, rfl⟩

theorem isDigit_of_mem_decimal {n : ℕ} {c : Char} (h : c ∈ (decimal n).toList) :
    c.isDigit = true := by
  obtain ⟨d, hlt, rfl⟩ := exists_digit_of_mem_decimal h
  interval_cases d <;> rfl

theorem isAlphanum_of_mem_decimal {n : ℕ} {c : Char} (h : c ∈ (decimal n).toList) :
    c.isAlphanum = true := by
  rw [Char.isAlphanum, isDigit_of_mem_decimal h, Bool.or_true]

/-! ## Punctuation -/

/-- A text falls apart at the first place of a mark in one way only. -/
theorem append_mark_inj {mark : String} {c : Char} {a a' b b' : String}
    (hmark : mark.toList.head? = some c) (ha : c ∉ a.toList) (ha' : c ∉ a'.toList)
    (h : a ++ mark ++ b = a' ++ mark ++ b') : a = a' ∧ b = b' := by
  -- what stands before the first mark character is the front, whatever follows
  have hfront : ∀ {s t : String}, c ∉ s.toList →
      (s ++ mark ++ t).toList.takeWhile (· != c) = s.toList := by
    intro s t hs
    obtain ⟨rest, hrest⟩ := List.head?_eq_some_iff.mp hmark
    have hne : ∀ x ∈ s.toList, (x != c) = true := by
      intro x hx
      rw [bne_iff_ne]
      rintro rfl
      exact hs hx
    rw [String.toList_append, String.toList_append, hrest, List.append_assoc,
      List.takeWhile_append_of_pos hne]
    simp
  have hfirst : a = a' := by
    rw [← String.toList_inj, ← hfront ha, h, hfront ha']
  rw [hfirst] at h
  exact ⟨hfirst, (String.append_right_inj _).mp h⟩

end CalcWatch.Text
