import CalcWatch.Machine.Inspect
import CalcWatch.Proofs.Execution.Accesses
import CalcWatch.Proofs.Invariants.Parts
import CalcWatch.Proofs.Text.Numerals
import Mathlib.Data.List.Infix
import Mathlib.Data.List.Nodup

/-!
# Registers by name

A debugger knows the registers by their names alone. There are a hundred and thirty-four of them,
one for every register, and to the debugger the machine is a store with these names as places.

## Every register has one name

The names are listed, and each of them has a text. What is read as a name is exactly such a text,
and it is read as the name that it is the text of. The number of a cell is the part of the text that
could be written in more than one way; it is read digit by digit, and what is read is shown to be
the numeral that would be written. That no two names have the same text then follows by reading.

## Registers by name are a store

What is stored under a name is read back under that name, and under every other name one reads what
one read before. Different names lead to different places, so two stores may be made in either
order, and of two stores under one name the first leaves no trace. All of this is shown for words
and then carried over to the values of the debugger. A value is cut to a word and then to the width
of its register on the way; the values that are accepted are those of which nothing but the sign of
a digit is lost.
-/

namespace CalcWatch

/-! ## Every register has one name -/

section

open Text (decimal upperDigit)

/-! ### Numbers of registers -/

namespace Text

theorem toList_decimal_of_lt_ten {n : ℕ} (h : n < 10) : (decimal n).toList = [upperDigit n] := by
  rw [toList_decimal, digits, digitsRev, if_pos h]
  rfl

theorem toList_decimal_of_lt_hundred {n : ℕ} (hlow : 10 ≤ n) (hhigh : n < 100) :
    (decimal n).toList = [upperDigit (n / 10), upperDigit (n % 10)] := by
  obtain ⟨k, rfl⟩ := Nat.exists_eq_add_one.mpr (Nat.zero_lt_of_lt hlow)
  rw [toList_decimal, digits, digitsRev, if_neg (by omega), digitsRev,
    if_pos (by omega)]
  rfl

end Text

namespace RegisterName

variable {cs : List Char} {r : Reg} {name name' : RegisterName} {x : String} {n : ℕ}

theorem reg?_decimal (h : n < 32) : reg? (decimal n).toList = some ⟨UInt8.ofNat n⟩ := by
  rcases Nat.lt_or_ge n 10 with hlt | hge
  · rw [Text.toList_decimal_of_lt_ten hlt, reg?, Text.digitIn?_upperDigit hlt, Option.map_some]
  · have hsum : 10 * (n / 10) + n % 10 = n := Nat.div_add_mod n 10
    have hbound : n / 10 ≠ 0 ∧ 10 * (n / 10) + n % 10 < 32 := by omega
    rw [Text.toList_decimal_of_lt_hundred hge (by omega), reg?,
      Text.digitIn?_upperDigit (by omega), Text.digitIn?_upperDigit (by omega)]
    change (if n / 10 ≠ 0 ∧ 10 * (n / 10) + n % 10 < 32 then
      some (⟨UInt8.ofNat (10 * (n / 10) + n % 10)⟩ : Reg) else none) = _
    rw [if_pos hbound, hsum]

theorem eq_decimal_of_reg? (h : reg? cs = some r) :
    ∃ n < 32, r = ⟨UInt8.ofNat n⟩ ∧ cs = (decimal n).toList := by
  unfold reg? at h
  split at h
  · obtain ⟨n, hn, rfl⟩ := Option.map_eq_some_iff.mp h
    obtain ⟨hlt, rfl⟩ := Text.eq_upperDigit_of_digitIn? hn
    exact ⟨n, by omega, rfl, (Text.toList_decimal_of_lt_ten hlt).symm⟩
  · obtain ⟨tens, htens, h⟩ := Option.bind_eq_some_iff.mp h
    obtain ⟨units, hunits, h⟩ := Option.bind_eq_some_iff.mp h
    obtain ⟨⟨hne, hlt⟩, hr⟩ := Option.ite_none_right_eq_some.mp h
    obtain ⟨-, rfl⟩ := Text.eq_upperDigit_of_digitIn? htens
    obtain ⟨hunits, rfl⟩ := Text.eq_upperDigit_of_digitIn? hunits
    cases hr
    refine ⟨10 * tens + units, hlt, rfl, ?_⟩
    rw [Text.toList_decimal_of_lt_hundred (by omega) (by omega)]
    congr <;> omega
  · cases h

end RegisterName

namespace Bank

variable {bank : Bank} {letter : Char}

theorem of_ofLetter? (h : ofLetter? letter = some bank) : bank ∈ all ∧ bank.letter = letter := by
  unfold ofLetter? at h
  split_ifs at h <;> cases h <;> simp_all [all, Bank.letter]

theorem letter_of_mem_all : ∀ bank ∈ all, bank.letter ≠ 'R' ∧ bank.letter.isUpper = true := by
  decide

end Bank

namespace RegisterName

/-! ### Names and their characters -/

theorem mem_all_iff : name ∈ all ↔ name ∈ controls ∨
    ∃ bank ∈ Bank.all, ∃ n < 32, name = cell bank ⟨UInt8.ofNat n⟩ := by
  simp only [all, List.mem_append, List.mem_flatMap, List.mem_map, List.mem_range, or_comm,
    eq_comm (a := name)]

theorem chars_cell (bank : Bank) (h : n < 32) :
    (cell bank ⟨UInt8.ofNat n⟩).chars = 'R' :: bank.letter :: (decimal n).toList := by
  rw [chars, UInt8.toNat_ofNat', Nat.mod_eq_of_lt (by omega)]

theorem ofChars?_chars (h : name ∈ all) : ofChars? name.chars = some name := by
  rcases mem_all_iff.mp h with hcontrol | ⟨bank, hbank, n, hn, rfl⟩
  · have hall : ∀ name ∈ controls, ofChars? name.chars = some name := by decide
    exact hall name hcontrol
  · rw [chars_cell bank hn]
    change ((Bank.ofLetter? bank.letter).bind fun bank ↦
      (reg? (decimal n).toList).bind fun r ↦ some (cell bank r)) = _
    rw [Bank.ofLetter_letter hbank, reg?_decimal hn]
    rfl

theorem of_ofChars? (h : ofChars? cs = some name) : name ∈ all ∧ name.chars = cs := by
  unfold ofChars? at h
  split at h
  case h_7 letter digits _ =>
    obtain ⟨bank, hbank, h⟩ := Option.bind_eq_some_iff.mp h
    obtain ⟨r, hr, h⟩ := Option.bind_eq_some_iff.mp h
    cases h
    obtain ⟨n, hn, rfl, rfl⟩ := eq_decimal_of_reg? hr
    obtain ⟨hmem, rfl⟩ := Bank.of_ofLetter? hbank
    exact ⟨mem_all_iff.mpr (.inr ⟨bank, hmem, n, hn, rfl⟩), chars_cell bank hn⟩
  case h_8 => cases h
  all_goals
    cases h
    exact ⟨by decide, rfl⟩

theorem parse_eq_ok_iff : parse x = .ok name ↔ name ∈ all ∧ name.text = x := by
  have hchars : parse x = .ok name ↔ ofChars? x.toList = some name := by
    rw [parse]
    cases ofChars? x.toList <;> simp
  rw [hchars]
  constructor
  · intro h
    obtain ⟨hmem, hcs⟩ := of_ofChars? h
    exact ⟨hmem, by rw [text, hcs, String.ofList_toList]⟩
  · rintro ⟨hmem, rfl⟩
    rw [text, String.toList_ofList]
    exact ofChars?_chars hmem

theorem parse_eq_error (h : x ∉ all.map text) : parse x = .error (.illegalRegisterName x) := by
  rw [parse]
  cases hread : ofChars? x.toList with
  | none => rfl
  | some name =>
    obtain ⟨hmem, hcs⟩ := of_ofChars? hread
    refine absurd (List.mem_map.mpr ⟨name, hmem, ?_⟩) h
    rw [text, hcs, String.ofList_toList]

/-! ### How names are spelled -/

/-- A control register has no `R` in its name, and in the place of every bank it has a character
that no cell of the bank has. -/
theorem chars_of_mem_controls : ∀ name ∈ controls, 'R' ∉ name.chars ∧
    name.chars.all Char.isUpper = true ∧ ∀ bank ∈ Bank.all,
      (name.chars.any fun c ↦ !(c == 'R' || c == bank.letter || c.isDigit)) = true := by
  decide

/-- What stands around one name within another: nothing, or more digits behind the number of a
cell. -/
theorem around_chars (hname : name ∈ all) (hname' : name' ∈ all) {front behind : List Char}
    (h : name'.chars = front ++ name.chars ++ behind) :
    front = [] ∧ (behind = [] ∨ name ∉ controls ∧ ∀ c ∈ behind, c.isDigit = true) := by
  rcases mem_all_iff.mp hname with hcontrol | ⟨bank, hbank, n, hn, rfl⟩ <;>
    rcases mem_all_iff.mp hname' with hcontrol' | ⟨bank', hbank', n', hn', rfl⟩
  · have hall : ∀ name ∈ controls, ∀ name' ∈ controls, name.chars <:+: name'.chars →
      name.chars = name'.chars := by decide
    have hsame := hall name hcontrol name' hcontrol' ⟨front, behind, h.symm⟩
    have hlength := congrArg List.length h
    simp only [List.length_append, hsame] at hlength
    exact ⟨List.length_eq_zero_iff.mp (by omega), .inl (List.length_eq_zero_iff.mp (by omega))⟩
  · obtain ⟨c, hc, hforeign⟩ :=
      List.any_eq_true.mp ((chars_of_mem_controls name hcontrol).2.2 bank' hbank')
    have hmem : c ∈ 'R' :: bank'.letter :: (decimal n').toList := by
      rw [← chars_cell bank' hn', h]
      simp [hc]
    rcases List.mem_cons.mp hmem with rfl | hmem
    · simp at hforeign
    rcases List.mem_cons.mp hmem with rfl | hdigit
    · simp at hforeign
    · simp [Text.isDigit_of_mem_decimal hdigit] at hforeign
  · refine absurd ?_ (chars_of_mem_controls name' hcontrol').1
    rw [h, chars_cell bank hn]
    simp
  · rw [chars_cell bank hn, chars_cell bank' hn'] at h
    cases front with
    | nil =>
      obtain ⟨-, -, hdigits⟩ : 'R' = 'R' ∧ bank'.letter = bank.letter ∧
          (decimal n').toList = (decimal n).toList ++ behind := by simpa using h
      refine ⟨rfl, .inr ⟨by simp [controls], fun c hc ↦ ?_⟩⟩
      exact Text.isDigit_of_mem_decimal (hdigits ▸ List.mem_append_right _ hc)
    | cons first front =>
      have hmem : 'R' ∈ bank'.letter :: (decimal n').toList := by
        rw [(List.cons.inj h).2]
        simp
      rcases List.mem_cons.mp hmem with hletter | hdigit
      · exact absurd hletter.symm (Bank.letter_of_mem_all bank' hbank').1
      · exact absurd (Text.isDigit_of_mem_decimal hdigit) (by decide)

/-- The look of a text that is read as a name. -/
structure Spelling (x : String) : Prop where
  /-- There are capital letters and digits, and nothing else. -/
  chars : ∀ c ∈ x.toList, c.isUpper = true ∨ c.isDigit = true
  /-- A number that begins with a zero ends there. -/
  leading : ∀ letter digits, x.toList = 'R' :: letter :: '0' :: digits → digits = []
  /-- The number of a cell is below thirty-two. -/
  number : ∀ letter n, x.toList = 'R' :: letter :: (decimal n).toList → n < 32
  /-- Nothing stands around a name but more digits behind the number of a cell. -/
  whole : ∀ name ∈ all, ∀ front behind : String, x = front ++ name.text ++ behind →
    front = "" ∧ (behind = "" ∨ name ∉ controls ∧ ∀ c ∈ behind.toList, c.isDigit = true)

/-- A name whose first character is an `R` is that of a cell. -/
theorem eq_cell_of_chars (h : name ∈ all) {tail : List Char} (hchars : name.chars = 'R' :: tail) :
    ∃ bank ∈ Bank.all, ∃ n < 32, tail = bank.letter :: (decimal n).toList := by
  rcases mem_all_iff.mp h with hcontrol | ⟨bank, hbank, n, hn, rfl⟩
  · refine absurd ?_ (chars_of_mem_controls name hcontrol).1
    rw [hchars]
    exact List.mem_cons_self
  · rw [chars_cell bank hn] at hchars
    exact ⟨bank, hbank, n, hn, (List.cons.inj hchars).2.symm⟩

theorem spelling_text (h : name ∈ all) : Spelling name.text where
  chars := by
    rw [text, String.toList_ofList]
    rcases mem_all_iff.mp h with hcontrol | ⟨bank, hbank, n, hn, rfl⟩
    · exact fun c hc ↦ .inl (List.all_eq_true.mp (chars_of_mem_controls name hcontrol).2.1 c hc)
    · rw [chars_cell bank hn]
      refine List.forall_mem_cons.mpr ⟨.inl rfl, List.forall_mem_cons.mpr ⟨.inl ?_, ?_⟩⟩
      · exact (Bank.letter_of_mem_all bank hbank).2
      · exact fun c hc ↦ .inr (Text.isDigit_of_mem_decimal hc)
  leading letter digits hchars := by
    rw [text, String.toList_ofList] at hchars
    obtain ⟨bank, -, n, -, htail⟩ := eq_cell_of_chars h hchars
    have hnumber := (List.cons.inj htail).2
    rcases eq_or_ne n 0 with rfl | hne
    · exact (List.cons.inj hnumber).2
    · obtain ⟨c, cs, hdecimal, hc⟩ := Text.decimal_of_ne_zero hne
      rw [hdecimal] at hnumber
      exact absurd (List.cons.inj hnumber).1.symm hc
  number letter n hchars := by
    rw [text, String.toList_ofList] at hchars
    obtain ⟨bank, -, k, hk, htail⟩ := eq_cell_of_chars h hchars
    obtain rfl := Text.decimal_injective (String.toList_inj.mp (List.cons.inj htail).2)
    exact hk
  whole other hother front behind htext := by
    have hchars := congrArg String.toList htext
    simp only [text, String.toList_append, String.toList_ofList] at hchars
    obtain ⟨hfront, hbehind⟩ := around_chars hother h hchars
    rw [← String.toList_eq_nil_iff, ← String.toList_eq_nil_iff]
    exact ⟨hfront, hbehind⟩

theorem text_inj (h : name ∈ all) (h' : name' ∈ all) : name.text = name'.text ↔ name = name' := by
  constructor
  · intro htext
    have hread := parse_eq_ok_iff.mpr ⟨h, htext⟩
    rw [parse_eq_ok_iff.mpr ⟨h', rfl⟩] at hread
    cases hread
    rfl
  · exact congrArg text

theorem nodup_all : all.Nodup := by
  have hnumber : ∀ n < 32, ∀ k < 32, UInt8.ofNat n = UInt8.ofNat k → n = k := by
    intro n hn k hk h
    have hnat := congrArg UInt8.toNat h
    rwa [UInt8.toNat_ofNat_of_lt' (Nat.lt_trans hn (by decide)),
      UInt8.toNat_ofNat_of_lt' (Nat.lt_trans hk (by decide))] at hnat
  refine List.Nodup.append (List.nodup_flatMap.mpr ⟨fun bank _ ↦ ?_, ?_⟩) (by decide) ?_
  · refine List.nodup_range.map_on fun n hn k hk h ↦ ?_
    exact hnumber n (List.mem_range.mp hn) k (List.mem_range.mp hk) (by simpa using h)
  · have hbanks : Bank.all.Nodup := by decide
    refine hbanks.imp fun {bank bank'} hne name h h' ↦ ?_
    obtain ⟨n, -, rfl⟩ := List.mem_map.mp h
    obtain ⟨k, -, h'⟩ := List.mem_map.mp h'
    exact hne (RegisterName.cell.inj h').1.symm
  · intro name h hcontrol
    obtain ⟨bank, -, h⟩ := List.mem_flatMap.mp h
    obtain ⟨n, -, rfl⟩ := List.mem_map.mp h
    simp [controls] at hcontrol

/-- **Register names are read exactly.** There are 134 of them. A text is read as a name if and only
if it is the text of one of them, it is then the text of the name that it is read as, and no other
text is read as the same name. Every other text is refused as it stands. -/
theorem parse_exact (x : String) :
    (all.length = 134 ∧ all.Nodup) ∧
      ((∃ name, parse x = .ok name) ↔ x ∈ all.map text) ∧
      (∀ name, parse x = .ok name →
        name ∈ all ∧ name.text = x ∧ Spelling x ∧ ∀ y, parse y = .ok name → y = x) ∧
      (x ∉ all.map text → parse x = .error (.illegalRegisterName x)) := by
  refine ⟨⟨rfl, nodup_all⟩, ?_, fun name h ↦ ?_, parse_eq_error⟩
  · simp only [parse_eq_ok_iff, List.mem_map]
  · obtain ⟨hmem, rfl⟩ := parse_eq_ok_iff.mp h
    exact ⟨hmem, rfl, spelling_text hmem, fun y hy ↦ (parse_eq_ok_iff.mp hy).2.symm⟩

example : parse "RD31" = .ok (cell ⟨3⟩ ⟨31⟩) := by decide

example : parse "RA01" = .error (.illegalRegisterName "RA01") := by decide

end RegisterName

end

/-! ## Registers by name are a store -/

/-! ### Two stores into a file -/

namespace RegisterFile

variable (file : RegisterFile) {bank bank' : Bank} {r r' : Reg}

theorem set_set (bank : Bank) (r : Reg) (value value' : UInt8) :
    (file.set bank r value).set bank r value' = file.set bank r value' := by
  refine eq_of_peek fun c ↦ ?_
  simp only [peek_set]
  split <;> rfl

theorem set_comm (h : bank.cell r ≠ bank'.cell r') (value value' : UInt8) :
    (file.set bank r value).set bank' r' value' = (file.set bank' r' value').set bank r value := by
  refine eq_of_peek fun c ↦ ?_
  simp only [peek_set]
  split_ifs with hc hc'
  · exact absurd (hc'.symm.trans hc) h
  · rfl
  · rfl
  · rfl

end RegisterFile

namespace RegisterName

variable {name other : RegisterName}

/-! ### Places of names -/

theorem inRange_of_mem_all {bank : Bank} {r : Reg} (h : cell bank r ∈ all) :
    bank.InRange ∧ r.InRange := by
  have hbanks : ∀ bank ∈ Bank.all, bank.InRange := by decide
  rcases mem_all_iff.mp h with hcontrol | ⟨bank, hbank, n, hn, hcell⟩
  · simp [controls] at hcontrol
  · cases hcell
    refine ⟨hbanks bank hbank, ?_⟩
    rw [Reg.InRange, UInt8.le_iff_toNat_le, UInt8.toNat_ofNat_of_lt' (Nat.lt_trans hn (by decide))]
    exact Nat.le_of_lt_succ hn

theorem inRange_of_parse {name : String} {bank : Bank} {r : Reg}
    (h : parse name = .ok (.cell bank r)) : bank.InRange ∧ r.InRange :=
  inRange_of_mem_all (parse_eq_ok_iff.mp h).1

theorem cell_ne {bank bank' : Bank} {r r' : Reg} (h : cell bank r ∈ all) (h' : cell bank' r' ∈ all)
    (hne : cell bank r ≠ cell bank' r') : bank.cell r ≠ bank'.cell r' := by
  obtain ⟨hbank, hr⟩ := inRange_of_mem_all h
  obtain ⟨hbank', hr'⟩ := inRange_of_mem_all h'
  intro hcell
  obtain ⟨hslot, hslot'⟩ := Prod.mk.inj hcell
  have hnumber : bank.number = bank'.number := UInt8.toNat_inj.mp <| by
    rw [Bank.toNat_number_of_inRange hbank, Bank.toNat_number_of_inRange hbank', hslot]
  have hnumber' : r.number = r'.number := UInt8.toNat_inj.mp <| by
    rw [Reg.toNat_number_of_inRange hr, Reg.toNat_number_of_inRange hr', hslot']
  exact hne (congrArg₂ cell (congrArg Bank.mk hnumber) (congrArg Reg.mk hnumber'))

/-! ### Values that are accepted -/

/-- The values that may be stored under a name. -/
def Fits (name : RegisterName) (value : ℤ) : Prop :=
  match name with
  | cell _ _ => -8 ≤ value ∧ value ≤ 15
  | pc | sa | sp => 0 ≤ value ∧ value ≤ 65535
  | flags => 0 ≤ value ∧ value ≤ 255
  | currentBank | additionalBank => 0 ≤ value ∧ value ≤ 3

/-- What is read after a value was stored under a name: a cell keeps a digit of it. -/
def kept (name : RegisterName) (value : ℤ) : ℤ :=
  match name with
  | cell _ _ => value % 16
  | _ => value

/-- The number of bits that there is room for. -/
def room : RegisterName → ℕ
  | cell _ _ => 4
  | pc | sa | sp => 16
  | flags => 8
  | currentBank | additionalBank => 2

theorem room_le (name : RegisterName) : name.room ≤ 16 := by
  cases name <;> simp [room]

theorem accepts_iff (value : Int32) : name.accepts value = true ↔ name.Fits value.toInt := by
  rw [accepts, Bool.and_eq_true, decide_eq_true_iff, decide_eq_true_iff, Int32.le_iff_toInt_le,
    Int32.le_iff_toInt_le]
  cases name <;> exact Iff.rfl

/-- Of a value that is accepted, what is kept is what there is room for. -/
theorem Fits.kept_eq {value : ℤ} (h : name.Fits value) :
    name.kept value = value % 2 ^ name.room := by
  cases name <;> simp only [Fits, kept, room] at h ⊢ <;> omega

end RegisterName

namespace Machine

variable (m : Machine) {name other : RegisterName}

/-! ### Reading and writing -/

/-- Of a word the register keeps as much as there is room for. -/
theorem toNat_readRegister_writeRegister (name : RegisterName) (word : UInt16) :
    ((m.writeRegister name word).readRegister name).toNat = word.toNat % 2 ^ name.room := by
  have hbyte : ∀ k ≤ 8, (word.toUInt8.toNat &&& (2 ^ k - 1)) = word.toNat % 2 ^ k := by
    intro k hk
    rw [Nat.and_two_pow_sub_one_eq_mod, UInt16.toNat_toUInt8]
    exact Nat.mod_mod_of_dvd _ (Nat.pow_dvd_pow 2 hk)
  cases name with
  | cell bank r =>
    change ((m.registers.set bank r word.toUInt8).get bank r).toUInt16.toNat = _
    rw [RegisterFile.get_set_self, UInt8.toNat_toUInt16, UInt8.toNat_and]
    exact hbyte 4 (by decide)
  | pc | sa | sp => exact (Nat.mod_eq_of_lt word.toNat_lt).symm
  | flags =>
    change word.toUInt8.toUInt16.toNat = _
    rw [UInt8.toNat_toUInt16, UInt16.toNat_toUInt8]
    rfl
  | currentBank | additionalBank =>
    change (word.toUInt8 &&& 0x03).toUInt16.toNat = _
    rw [UInt8.toNat_toUInt16, UInt8.toNat_and]
    exact hbyte 2 (by decide)

theorem readRegister_writeRegister_of_ne (h : name ∈ RegisterName.all)
    (h' : other ∈ RegisterName.all) (hne : other ≠ name) (word : UInt16) :
    (m.writeRegister name word).readRegister other = m.readRegister other := by
  cases name with
  | cell bank r =>
    cases other with
    | cell bank' r' =>
      have hcell : bank'.cell r' ≠ bank.cell r := RegisterName.cell_ne h' h hne
      change ((m.registers.set bank r word.toUInt8).get bank' r').toUInt16 = _
      rw [RegisterFile.get_eq_peek, RegisterFile.peek_set, if_neg hcell]
      rfl
    | _ => rfl
  | _ => cases other <;> first | rfl | exact absurd rfl hne

theorem writeRegister_writeRegister (name : RegisterName) (word word' : UInt16) :
    (m.writeRegister name word).writeRegister name word' = m.writeRegister name word' := by
  cases name with
  | cell bank r =>
    exact congrArg (fun file ↦ { m with registers := file })
      (m.registers.set_set bank r word.toUInt8 word'.toUInt8)
  | _ => rfl

theorem writeRegister_comm (h : name ∈ RegisterName.all) (h' : other ∈ RegisterName.all)
    (hne : other ≠ name) (word word' : UInt16) :
    (m.writeRegister name word).writeRegister other word'
      = (m.writeRegister other word').writeRegister name word := by
  cases name with
  | cell bank r =>
    cases other with
    | cell bank' r' =>
      exact congrArg (fun file ↦ { m with registers := file })
        (m.registers.set_comm (RegisterName.cell_ne h h' hne.symm) word.toUInt8 word'.toUInt8)
    | _ => rfl
  | _ => cases other <;> first | rfl | exact absurd rfl hne

/-! ### Access by name -/

variable {m} {m' : Machine} {x : String} {value : Int32}

theorem registerValue_of_mem (h : name ∈ RegisterName.all) (m : Machine) :
    m.registerValue name.text = .ok (m.readRegister name) := by
  rw [registerValue, RegisterName.parse_eq_ok_iff.mpr ⟨h, rfl⟩]
  rfl

theorem registerValue_of_notMem (h : x ∉ RegisterName.all.map RegisterName.text) (m : Machine) :
    m.registerValue x = .error (.illegalRegisterName x) := by
  rw [registerValue, RegisterName.parse_eq_error h]
  rfl

theorem ofExcept_parse (h : name ∈ RegisterName.all) (m : Machine) :
    Faulting.ofExcept (RegisterName.parse name.text) m = .ok name m :=
  Faulting.ask_of_ok (RegisterName.parse_eq_ok_iff.mpr ⟨h, rfl⟩)

theorem setRegisterValue_of_fits (h : name ∈ RegisterName.all) (hfits : name.Fits value.toInt)
    (m : Machine) :
    setRegisterValue name.text value m
      = .ok () (m.writeRegister name value.toInt16.toUInt16) := by
  rw [setRegisterValue, Faulting.bind_of_ok (ofExcept_parse h m),
    if_pos ((RegisterName.accepts_iff value).mpr hfits)]
  rfl

theorem setRegisterValue_of_not_fits (h : name ∈ RegisterName.all)
    (hfits : ¬name.Fits value.toInt) (m : Machine) :
    setRegisterValue name.text value m = .error (.illegalRegisterValue name.text value) m := by
  rw [setRegisterValue, Faulting.bind_of_ok (ofExcept_parse h m),
    if_neg (mt (RegisterName.accepts_iff value).mp hfits)]
  rfl

theorem setRegisterValue_of_notMem (h : x ∉ RegisterName.all.map RegisterName.text)
    (value : Int32) (m : Machine) :
    setRegisterValue x value m = .error (.illegalRegisterName x) m :=
  Faulting.bind_of_error (Faulting.ask_of_error (RegisterName.parse_eq_error h))

/-- All that a store by name can do, when it succeeds. -/
theorem exists_of_setRegisterValue_ok (h : setRegisterValue x value m = .ok () m') :
    ∃ name ∈ RegisterName.all, name.text = x ∧ name.Fits value.toInt ∧
      m' = m.writeRegister name value.toInt16.toUInt16 := by
  by_cases hx : x ∈ RegisterName.all.map RegisterName.text
  · obtain ⟨name, hname, rfl⟩ := List.mem_map.mp hx
    by_cases hfits : name.Fits value.toInt
    · rw [setRegisterValue_of_fits hname hfits] at h
      cases h
      exact ⟨name, hname, rfl, hfits, rfl⟩
    · rw [setRegisterValue_of_not_fits hname hfits] at h
      cases h
  · rw [setRegisterValue_of_notMem hx] at h
    cases h

/-- What a value that was stored under the name `x` of a machine `m` leaves. -/
structure StoredAs (m : Machine) (x : String) (value : Int32) (m' : Machine) : Prop where
  /-- The value is read back, or the digit that a cell keeps of it. -/
  self : ∃ name ∈ RegisterName.all, name.text = x ∧
    ∃ word, m'.registerValue x = .ok word ∧ (word.toNat : ℤ) = name.kept value.toInt
  /-- Under every other name nothing has changed. -/
  others : ∀ y ≠ x, m'.registerValue y = m.registerValue y
  /-- The address last sent to the display is still what it was. -/
  la : m'.control.la = m.control.la
  /-- The interrupts are still what they were. -/
  interrupts : m'.interrupts = m.interrupts
  /-- The memory is still what it was. -/
  memory : m'.memory = m.memory
  /-- The ports are still what they were. -/
  ports : m'.ports = m.ports
  /-- The addresses after a reset are still what they were. -/
  resets : m'.resetPc = m.resetPc ∧ m'.resetSp = m.resetSp

theorem toNat_readRegister_of_fits (hfits : name.Fits value.toInt) (m : Machine) :
    (((m.writeRegister name value.toInt16.toUInt16).readRegister name).toNat : ℤ)
      = name.kept value.toInt := by
  have hword : (value.toInt16.toUInt16.toNat : ℤ) = value.toInt % 2 ^ 16 := by
    rw [toNat_toUInt16, Int32.toInt_toInt16]
    exact Int.bmod_emod
  rw [toNat_readRegister_writeRegister, Int.natCast_emod, hword, hfits.kept_eq, Int.natCast_pow]
  exact Int.emod_emod_of_dvd _ (pow_dvd_pow 2 name.room_le)

theorem storedAs_writeRegister (hname : name ∈ RegisterName.all) (hfits : name.Fits value.toInt)
    (m : Machine) :
    m.StoredAs name.text value (m.writeRegister name value.toInt16.toUInt16) where
  self := ⟨name, hname, rfl, _, registerValue_of_mem hname _, toNat_readRegister_of_fits hfits m⟩
  others y hy := by
    by_cases hmem : y ∈ RegisterName.all.map RegisterName.text
    · obtain ⟨other, hother, rfl⟩ := List.mem_map.mp hmem
      have hne : other ≠ name := fun heq ↦ hy (congrArg RegisterName.text heq)
      rw [registerValue_of_mem hother, registerValue_of_mem hother,
        readRegister_writeRegister_of_ne m hname hother hne]
    · rw [registerValue_of_notMem hmem, registerValue_of_notMem hmem]
  la := by cases name <;> rfl
  interrupts := by cases name <;> rfl
  memory := by cases name <;> rfl
  ports := by cases name <;> rfl
  resets := by cases name <;> exact ⟨rfl, rfl⟩

/-- **Registers by name are a store** that checks what it is given. A value is stored if and only if
the name is that of a register and the value belongs there; otherwise the fault says what was wrong,
the name before the value, and nothing changes. What was stored is read back under its name, and
nothing else changes. Stores under different names may be made in either order, and the second of
two stores under one name leaves what it would have left without the first. -/
theorem setRegisterValue_lawful (m : Machine) (x : String) (value : Int32) :
    ((∃ m', setRegisterValue x value m = .ok () m') ↔
        ∃ name ∈ RegisterName.all, name.text = x ∧ name.Fits value.toInt) ∧
      (x ∉ RegisterName.all.map RegisterName.text →
        setRegisterValue x value m = .error (.illegalRegisterName x) m) ∧
      (∀ name ∈ RegisterName.all, name.text = x → ¬name.Fits value.toInt →
        setRegisterValue x value m = .error (.illegalRegisterValue x value) m) ∧
      ∀ m', setRegisterValue x value m = .ok () m' →
        m.StoredAs x value m' ∧
        (∀ y ≠ x, ∀ value' t, setRegisterValue y value' m = .ok () t →
          ∃ u, setRegisterValue y value' m' = .ok () u ∧ setRegisterValue x value t = .ok () u) ∧
        ∀ value' t, setRegisterValue x value' m = .ok () t →
          setRegisterValue x value' m' = .ok () t := by
  refine ⟨⟨?_, ?_⟩, fun hx ↦ setRegisterValue_of_notMem hx value m, ?_, fun m' h ↦ ?_⟩
  · rintro ⟨m', h⟩
    obtain ⟨name, hname, htext, hfits, -⟩ := exists_of_setRegisterValue_ok h
    exact ⟨name, hname, htext, hfits⟩
  · rintro ⟨name, hname, rfl, hfits⟩
    exact ⟨_, setRegisterValue_of_fits hname hfits m⟩
  · rintro name hname rfl hfits
    exact setRegisterValue_of_not_fits hname hfits m
  obtain ⟨name, hname, rfl, hfits, rfl⟩ := exists_of_setRegisterValue_ok h
  refine ⟨storedAs_writeRegister hname hfits m, ?_, ?_⟩
  · intro y hy value' t h'
    obtain ⟨other, hother, rfl, hfits', rfl⟩ := exists_of_setRegisterValue_ok h'
    have hne : other ≠ name := fun heq ↦ hy (congrArg RegisterName.text heq)
    refine ⟨_, setRegisterValue_of_fits hother hfits' _, ?_⟩
    rw [setRegisterValue_of_fits hname hfits, m.writeRegister_comm hname hother hne]
  · intro value' t h'
    obtain ⟨other, hother, htext, hfits', rfl⟩ := exists_of_setRegisterValue_ok h'
    obtain rfl := (RegisterName.text_inj hother hname).mp htext
    rw [setRegisterValue_of_fits hname hfits', m.writeRegister_writeRegister]

end Machine

end CalcWatch
