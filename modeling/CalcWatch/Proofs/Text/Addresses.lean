import CalcWatch.Proofs.Text.Numerals
import CalcWatch.Runner.Options
import Mathlib.Data.List.Forall2
import Mathlib.Data.Nat.Digits.Defs

/-!
# Addresses are read exactly

There is a grammar of numbers and addresses, and what is read is what the grammar says: no text is
read as an address that does not write one, none that writes one is refused, and the address is the
one that is written.

## The grammar

A numeral is a list of digits, the most significant one first, of which there is at least one. What
it writes is said by `Nat.ofDigits` and has nothing to do with how it is read. A number is a numeral
that may have a plus sign in front, and an address is a number in ten, or one in sixteen behind its
mark. A decimal numeral never begins with a mark, so a text belongs to one of the two cases at most,
and its first two characters tell to which.

## The reader

The reader adds up the digits from the left and gives up as soon as it passes the bound, though more
digits may follow. It may do so because a number does not shrink by another digit, `le_continued`.
So it gives up exactly if the whole number is too large, however many zeros stand in front and
however long the numeral is.
-/

namespace CalcWatch

namespace Text

variable {base bound n : ℕ} {c : Char} {cs : List Char} {d : ℕ} {ds : List ℕ}

/-! ## Numbers -/

/-- The characters write a number: there is at least one digit, and the most significant one comes
first. -/
def IsNumeral (base : ℕ) (cs : List Char) (n : ℕ) : Prop :=
  cs ≠ [] ∧ ∃ ds, List.Forall₂ (fun c d ↦ IsDigit c d ∧ d < base) cs ds ∧
    n = Nat.ofDigits base ds.reverse

/-- The number that continues `n` with more digits. -/
def continued (base n : ℕ) (ds : List ℕ) : ℕ := ds.foldl (fun n d ↦ base * n + d) n

theorem continued_zero (base : ℕ) (ds : List ℕ) :
    continued base 0 ds = Nat.ofDigits base ds.reverse := by
  rw [Nat.ofDigits_eq_foldr, List.foldr_reverse, continued]
  simp only [Nat.cast_id, Nat.add_comm]

/-- A number does not shrink by another digit. -/
theorem le_continued (hbase : 0 < base) (n : ℕ) (ds : List ℕ) : n ≤ continued base n ds := by
  induction ds generalizing n with
  | nil => exact le_rfl
  | cons d ds ih =>
    calc n ≤ base * n := Nat.le_mul_of_pos_left n hbase
      _ ≤ base * n + d := Nat.le_add_right _ d
      _ ≤ continued base n (d :: ds) := ih _

theorem readDigits_cons_of_none {beyond : NumberError} (h : digitIn? base c = none) :
    readDigits base bound beyond n (c :: cs) = .error .invalidDigit := by
  rw [readDigits, List.foldlM_cons, h]
  rfl

theorem readDigits_cons_of_some {beyond : NumberError} (h : digitIn? base c = some d) :
    readDigits base bound beyond n (c :: cs) =
      if base * n + d ≤ bound then readDigits base bound beyond (base * n + d) cs
      else .error beyond := by
  rw [readDigits, List.foldlM_cons, h]
  dsimp only
  split <;> rfl

/-- Digits are read up to the number that they continue, unless that is beyond the bound. -/
theorem readDigits_of_isDigit (hbase : 0 < base) {beyond : NumberError}
    (h : List.Forall₂ (fun c d ↦ IsDigit c d ∧ d < base) cs ds) (hn : n ≤ bound) :
    readDigits base bound beyond n cs =
      if continued base n ds ≤ bound then .ok (continued base n ds) else .error beyond := by
  induction h generalizing n with
  | nil => exact (if_pos hn).symm
  | @cons c d cs ds hdigit hdigits ih =>
    rw [readDigits_cons_of_some (digitIn?_eq_some_iff.mpr hdigit)]
    by_cases hnext : base * n + d ≤ bound
    · rw [if_pos hnext]
      exact ih hnext
    · -- the rest of the digits cannot bring the number back below the bound
      have hlarge : ¬continued base n (d :: ds) ≤ bound := fun hle ↦
        hnext ((le_continued hbase _ ds).trans hle)
      rw [if_neg hnext, if_neg hlarge]

theorem exists_isDigit_of_readDigits {beyond : NumberError} {m : ℕ}
    (h : readDigits base bound beyond n cs = .ok m) :
    ∃ ds, List.Forall₂ (fun c d ↦ IsDigit c d ∧ d < base) cs ds := by
  induction cs generalizing n with
  | nil => exact ⟨[], .nil⟩
  | cons c cs ih =>
    cases hd : digitIn? base c with
    | none =>
      rw [readDigits_cons_of_none hd] at h
      cases h
    | some d =>
      rw [readDigits_cons_of_some hd] at h
      split at h
      · obtain ⟨ds, hds⟩ := ih h
        exact ⟨d :: ds, .cons (digitIn?_eq_some_iff.mp hd) hds⟩
      · cases h

/-! ### One number -/

theorem readDigits_of_isNumeral (hbase : 0 < base) {beyond : NumberError}
    (h : IsNumeral base cs n) :
    readDigits base bound beyond 0 cs = if n ≤ bound then .ok n else .error beyond := by
  obtain ⟨-, ds, hds, rfl⟩ := h
  rw [readDigits_of_isDigit hbase hds bound.zero_le, continued_zero]

theorem isNumeral_of_readDigits (hbase : 0 < base) {beyond : NumberError} (hcs : cs ≠ [])
    (h : readDigits base bound beyond 0 cs = .ok n) : IsNumeral base cs n := by
  obtain ⟨ds, hds⟩ := exists_isDigit_of_readDigits h
  rw [readDigits_of_isDigit hbase hds bound.zero_le, continued_zero] at h
  split at h
  · cases h
    exact ⟨hcs, ds, hds, rfl⟩
  · cases h

/-- The characters write a number, and there may be a plus sign in front. -/
def IsNatural (base : ℕ) (cs : List Char) (n : ℕ) : Prop :=
  ∃ sign ∈ [[], ['+']], ∃ digits, cs = sign ++ digits ∧ IsNumeral base digits n

theorem not_isDigit_plus (d : ℕ) : ¬IsDigit '+' d := by
  rw [← digitValue?_eq_some_iff]
  nofun

theorem readNatural_cons (hc : c ≠ '+') (cs : List Char) :
    readNatural base bound (c :: cs) = readDigits base bound .tooLarge 0 (c :: cs) := by
  unfold readNatural
  split <;> simp_all

theorem readNatural_of_isNatural (hbase : 0 < base) (h : IsNatural base cs n) :
    readNatural base bound cs = if n ≤ bound then .ok n else .error .tooLarge := by
  obtain ⟨sign, hsign, digits, rfl, hdigits⟩ := h
  rw [← readDigits_of_isNumeral hbase hdigits]
  obtain ⟨c, cs, rfl⟩ := List.exists_cons_of_ne_nil hdigits.1
  rcases List.mem_pair.mp hsign with rfl | rfl
  · obtain ⟨-, ds, hds, -⟩ := hdigits
    obtain ⟨d, ds, hd, -, -⟩ := List.forall₂_cons_left_iff.mp hds
    refine readNatural_cons ?_ cs
    rintro rfl
    exact not_isDigit_plus d hd.1
  · rfl

theorem isNatural_of_readNatural (hbase : 0 < base) (h : readNatural base bound cs = .ok n) :
    IsNatural base cs n := by
  unfold readNatural at h
  split at h
  · cases h
  · cases h
  · next digits hdigits =>
    exact ⟨['+'], by simp, digits, rfl, isNumeral_of_readDigits hbase hdigits h⟩
  · next hcs _ _ => exact ⟨[], by simp, cs, rfl, isNumeral_of_readDigits hbase hcs h⟩

/-- Besides the sign, a number has digits of its base and nothing else. -/
theorem eq_plus_or_isDigit_of_mem (h : IsNatural base cs n) (hc : c ∈ cs) :
    c = '+' ∨ ∃ d < base, IsDigit c d := by
  obtain ⟨sign, hsign, digits, rfl, -, ds, hds, -⟩ := h
  rcases List.mem_append.mp hc with hc | hc
  · rcases List.mem_pair.mp hsign with rfl | rfl
    · cases hc
    · exact .inl (List.mem_singleton.mp hc)
  · obtain ⟨i, hi, rfl⟩ := List.getElem_of_mem hc
    have hdigit := hds.get hi (hds.length_eq ▸ hi)
    exact .inr ⟨_, hdigit.2, hdigit.1⟩

theorem readNatural_eq_ok_iff (hbase : 0 < base) :
    readNatural base bound cs = .ok n ↔ IsNatural base cs n ∧ n ≤ bound := by
  constructor
  · intro h
    have hnatural := isNatural_of_readNatural hbase h
    rw [readNatural_of_isNatural hbase hnatural] at h
    split at h
    · next hn => exact ⟨hnatural, hn⟩
    · cases h
  · rintro ⟨hnatural, hn⟩
    rw [readNatural_of_isNatural hbase hnatural, if_pos hn]

end Text

/-! ## Addresses -/

open Text (IsNatural)

/-- The characters write an address: a decimal number, or a hexadecimal one behind its mark. -/
inductive WritesAddress : List Char → ℕ → Prop
  | decimal {cs : List Char} {n : ℕ} (h : IsNatural 10 cs n) : WritesAddress cs n
  | hexadecimal {x : Char} {cs : List Char} {n : ℕ} (hx : x = 'x' ∨ x = 'X')
      (h : IsNatural 16 cs n) : WritesAddress ('0' :: x :: cs) n

section

variable {x : Char} {cs : List Char} {n : ℕ}

theorem not_isNatural_marked (hx : x = 'x' ∨ x = 'X') : ¬IsNatural 10 ('0' :: x :: cs) n := by
  intro h
  rcases Text.eq_plus_or_isDigit_of_mem h (List.mem_cons_of_mem _ List.mem_cons_self) with
    rfl | ⟨d, hd, hdigit⟩
  · simp at hx
  · have hforeign := Text.digitIn?_eq_some_iff.mpr ⟨hdigit, hd⟩
    rcases hx with rfl | rfl <;> cases hforeign

theorem writesAddress_marked_iff (hx : x = 'x' ∨ x = 'X') :
    WritesAddress ('0' :: x :: cs) n ↔ IsNatural 16 cs n := by
  constructor
  · intro h
    cases h with
    | decimal h => exact absurd h (not_isNatural_marked hx)
    | hexadecimal _ h => exact h
  · exact .hexadecimal hx

theorem writesAddress_unmarked_iff (hlower : ∀ digits, cs ≠ '0' :: 'x' :: digits)
    (hupper : ∀ digits, cs ≠ '0' :: 'X' :: digits) : WritesAddress cs n ↔ IsNatural 10 cs n := by
  constructor
  · intro h
    cases h with
    | decimal h => exact h
    | hexadecimal hx _ =>
      rcases hx with rfl | rfl
      · exact absurd rfl (hlower _)
      · exact absurd rfl (hupper _)
  · exact .decimal

/-- An address is read as a number in the base that its mark tells. -/
theorem exists_parseAddress_eq (s : String) : ∃ base digits, 0 < base ∧
    parseAddress s = (Text.readNatural base 0xFFFF digits).map UInt16.ofNat ∧
    ∀ n, WritesAddress s.toList n ↔ IsNatural base digits n := by
  unfold parseAddress addressParts
  split
  next base digits hparts =>
  split at hparts <;> cases hparts
  · next hs => exact ⟨16, digits, by decide, rfl, fun n ↦ hs ▸ writesAddress_marked_iff (.inl rfl)⟩
  · next hs => exact ⟨16, digits, by decide, rfl, fun n ↦ hs ▸ writesAddress_marked_iff (.inr rfl)⟩
  · next hlower hupper =>
    exact ⟨10, s.toList, by decide, rfl, fun n ↦ writesAddress_unmarked_iff hlower hupper⟩

theorem minus_notMem_of_writesAddress (h : WritesAddress cs n) : '-' ∉ cs := by
  have hnatural : ∀ {base cs}, IsNatural base cs n → '-' ∉ cs := by
    intro base cs h hmem
    rcases Text.eq_plus_or_isDigit_of_mem h hmem with hplus | ⟨d, -, hdigit⟩
    · cases hplus
    · cases Text.digitValue?_eq_some_iff.mpr hdigit
  cases h with
  | decimal h => exact hnatural h
  | hexadecimal hx h =>
    rw [List.mem_cons, List.mem_cons]
    rintro (hzero | rfl | hmem)
    · cases hzero
    · simp at hx
    · exact hnatural h hmem

theorem parseAddress_eq_ok_iff {s : String} {a : UInt16} :
    parseAddress s = .ok a ↔ WritesAddress s.toList a.toNat := by
  obtain ⟨base, digits, hbase, hparse, hwrites⟩ := exists_parseAddress_eq s
  have hread : ∀ n, Text.readNatural base 0xFFFF digits = .ok n ↔
      IsNatural base digits n ∧ n ≤ 0xFFFF := fun n ↦ Text.readNatural_eq_ok_iff hbase
  rw [hwrites, hparse]
  constructor
  · intro h
    cases hn : Text.readNatural base 0xFFFF digits with
    | error e =>
      rw [hn] at h
      cases h
    | ok n =>
      rw [hn] at h
      cases h
      obtain ⟨hnatural, hle⟩ := (hread n).mp hn
      rwa [UInt16.toNat_ofNat_of_lt' (Nat.lt_succ_of_le hle)]
  · intro h
    rw [(hread a.toNat).mpr ⟨h, Nat.le_of_lt_succ a.toNat_lt⟩]
    exact congrArg Except.ok UInt16.ofNat_toNat

theorem parseAddress_of_large {s : String} (h : WritesAddress s.toList n) (hn : 0xFFFF < n) :
    parseAddress s = .error .tooLarge := by
  obtain ⟨base, digits, hbase, hparse, hwrites⟩ := exists_parseAddress_eq s
  rw [hparse, Text.readNatural_of_isNatural hbase ((hwrites n).mp h), if_neg (Nat.not_le_of_lt hn)]
  rfl

theorem exists_parseAddress_error {s : String} (h : ∀ a : UInt16, ¬WritesAddress s.toList a.toNat) :
    ∃ e, parseAddress s = .error e := by
  cases hparse : parseAddress s with
  | error e => exact ⟨e, rfl⟩
  | ok a => exact absurd (parseAddress_eq_ok_iff.mp hparse) (h a)

end

/-- What is read as an address, and what is not. -/
structure ReadsAddress (s : String) : Prop where
  /-- A text is read as an address if and only if it writes the number of the address. -/
  accepted : ∀ a, parseAddress s = .ok a ↔ WritesAddress s.toList a.toNat
  /-- Every other text is refused. -/
  refused : (∀ a : UInt16, ¬WritesAddress s.toList a.toNat) → ∃ e, parseAddress s = .error e
  /-- A number beyond the last address is refused as such, however long it is. -/
  tooLarge : ∀ n, WritesAddress s.toList n → 0xFFFF < n → parseAddress s = .error .tooLarge
  /-- There is no address without a digit. -/
  digitless : s ∈ ["", "+", "0x", "0X", "0x+", "0X+"] → ∃ e, parseAddress s = .error e
  /-- There is no address with a minus sign. -/
  minus : '-' ∈ s.toList → ∃ e, parseAddress s = .error e

/-- **Addresses are read exactly.** A text is an address if it writes a number of sixteen bits in
decimal or, behind its mark, in hexadecimal, and every other text is refused. -/
theorem parseAddress_exact (s : String) : ReadsAddress s where
  accepted _ := parseAddress_eq_ok_iff
  refused := exists_parseAddress_error
  tooLarge _ := parseAddress_of_large
  digitless h := by
    simp only [List.mem_cons, List.not_mem_nil, or_false] at h
    rcases h with rfl | rfl | rfl | rfl | rfl | rfl <;> exact ⟨_, rfl⟩
  minus hminus :=
    exists_parseAddress_error fun _ h ↦ minus_notMem_of_writesAddress h hminus

example : parseAddress "0X+000000000000fFfF" = .ok 0xFFFF := by decide

example : parseAddress "000000000000065536" = .error .tooLarge := by decide

end CalcWatch
