import CalcWatch.Machine
import CalcWatch.Proofs.Text.Numerals
import Mathlib.Data.List.Nodup

/-!
# Equal text, equal behaviour

A listing is faithful if the text of a word tells what the word does. It is, with one exception.

## What the text of a word tells

The way from the text to the operation has four stages, and each is an injection or says what it
loses. The text tells the mnemonic and the operands, as a mnemonic has no space. The mnemonic tells
the form: there are fifty-seven of both, and no two forms share one. The operands tell the fields
that the layout of the form shows, because a numeral ends at the punctuation behind it. And the
fields tell the operation, since an operation is made from the fields of its layout. The one
exception is the zero test: whether it looks for zero or for anything else is in no field of its
layout.

## What words with the same text do

Two words with the same assembly text behave alike, unless they are zero tests that look for
different things and jump somewhere else than to the following instruction. That such words do
behave differently is shown on a machine whose registers are all zero: one of the tests jumps away
there and the other one does not.
-/

namespace CalcWatch

/-! ## What the text of a word tells -/

/-! ### Mnemonics -/

theorem Form.mem_opcodeTable (form : Form) : ∃ entry ∈ opcodeTable, entry.form = form := by
  cases form <;> decide

theorem Form.mnemonic_injective : Function.Injective Form.mnemonic := by
  intro form form' h
  obtain ⟨entry, hentry, rfl⟩ := form.mem_opcodeTable
  obtain ⟨entry', hentry', rfl⟩ := form'.mem_opcodeTable
  have hnodup : (opcodeTable.map (·.form.mnemonic)).Nodup := by decide +kernel
  rw [List.inj_on_of_nodup_map hnodup hentry hentry' h]

theorem Form.space_notMem_mnemonic (form : Form) : ' ' ∉ form.mnemonic.toList := by
  cases form <;> decide

theorem Form.mnemonic_ne_directive (form : Form) : form.mnemonic ≠ ".word" := by
  cases form <;> decide

/-! ### Lines -/

namespace Row

theorem space_notMem_mnemonic (address word : UInt16) :
    ' ' ∉ (ofWord address word).mnemonic.toList := by
  rw [ofWord]
  split
  · exact Form.space_notMem_mnemonic _
  · exact (by decide : ' ' ∉ ".word".toList)

theorem text_inj {row row' : Row} (hspace : ' ' ∉ row.mnemonic.toList)
    (hspace' : ' ' ∉ row'.mnemonic.toList) (h : row.text = row'.text) :
    row.mnemonic = row'.mnemonic ∧ row.operands = row'.operands := by
  have hmem : ∀ s t : String, ' ' ∈ (s ++ " " ++ t).toList := by simp
  by_cases hempty : row.operands = "" <;> by_cases hempty' : row'.operands = ""
  · rw [text, text, if_pos hempty, if_pos hempty'] at h
    exact ⟨h, hempty.trans hempty'.symm⟩
  · rw [text, text, if_pos hempty, if_neg hempty'] at h
    exact absurd (h ▸ hmem _ _) hspace
  · rw [text, text, if_neg hempty, if_pos hempty'] at h
    exact absurd (h ▸ hmem _ _) hspace'
  · rw [text, text, if_neg hempty, if_neg hempty'] at h
    exact Text.append_mark_inj rfl hspace hspace' h

end Row

/-- The text of a word tells whether it is an instruction, and of an instruction the form and the
operands. -/
theorem disassemble_inj {a b : UInt16} (h : disassemble a = disassemble b) :
    (Instruction.decode a = .error (.illegalOpcode a) ∧
      Instruction.decode b = .error (.illegalOpcode b)) ∨
    ∃ i j, Instruction.decode a = .ok i ∧ Instruction.decode b = .ok j ∧ i.form = j.form ∧
      i.operandText = j.operandText := by
  obtain ⟨hmnemonic, hoperands⟩ := Row.text_inj (Row.space_notMem_mnemonic 0 a)
    (Row.space_notMem_mnemonic 0 b) h
  rw [Row.ofWord, Row.ofWord] at hmnemonic hoperands
  -- the directive is no mnemonic, so either both words are instructions or neither is
  cases ha : Instruction.decode a with
  | error f =>
    cases hb : Instruction.decode b with
    | error g =>
      rw [Instruction.eq_illegalOpcode_of_decode ha, Instruction.eq_illegalOpcode_of_decode hb]
      exact .inl ⟨rfl, rfl⟩
    | ok j =>
      rw [ha, hb] at hmnemonic
      exact absurd hmnemonic.symm j.form.mnemonic_ne_directive
  | ok i =>
    cases hb : Instruction.decode b with
    | error g =>
      rw [ha, hb] at hmnemonic
      exact absurd hmnemonic i.form.mnemonic_ne_directive
    | ok j =>
      rw [ha, hb] at hmnemonic hoperands
      exact .inr ⟨i, j, rfl, rfl, Form.mnemonic_injective hmnemonic, hoperands⟩

/-! ### Operands -/

theorem Reg.notMem_text (r : Reg) {c : Char} (hletter : c ≠ 'R') (hc : c.isAlphanum = false) :
    c ∉ r.text.toList := by
  rw [Reg.text, String.toList_append, List.mem_append, not_or]
  refine ⟨by simpa using hletter, fun hmem ↦ ?_⟩
  rw [Text.isAlphanum_of_mem_decimal hmem] at hc
  exact Bool.noConfusion hc

theorem Reg.text_injective : Function.Injective Reg.text := by
  intro r r' h
  have hnumber := Text.decimal_injective ((String.append_right_inj "R").mp h)
  rcases r with ⟨n⟩
  rcases r' with ⟨n'⟩
  exact congrArg Reg.mk (UInt8.toNat_inj.mp hnumber)

/-- Whether two words agree in the fields that a layout shows. -/
def Shape.Agree (shape : Shape) (i j : Instruction) : Prop :=
  match shape with
  | .bare => True
  | .pair | .window => i.d = j.d ∧ i.s = j.s
  | .regImmediate => i.d = j.d ∧ i.immediate4 = j.immediate4
  | .bank => i.bankBits = j.bankBits
  | .groupWindow => i.d = j.d ∧ i.groupLow = j.groupLow
  | .regOffset => i.d = j.d ∧ i.offset5 = j.offset5
  | .reg => i.d = j.d
  | .bitRegOffset => i.d = j.d ∧ i.offset5 = j.offset5 ∧ i.bitIndex = j.bitIndex
  | .target12 => i.target12 = j.target12
  | .target10 => i.target10 = j.target10
  | .immediate10 => i.immediate10 = j.immediate10
  | .immediate8 => i.immediate8 = j.immediate8

/-- The operands tell the fields of their layout. -/
theorem Instruction.agree_of_operandText {i j : Instruction} (hform : i.form = j.form)
    (h : i.operandText = j.operandText) : i.form.shape.Agree i j := by
  have hcomma : ∀ r : Reg, ',' ∉ r.text.toList := fun r ↦ r.notMem_text (by decide) rfl
  have hdot : ∀ r : Reg, '.' ∉ r.text.toList := fun r ↦ r.notMem_text (by decide) rfl
  rw [operandText, operandText, ← hform] at h
  cases hshape : i.form.shape <;> rw [hshape] at h
  case bare => trivial
  case pair | window =>
    obtain ⟨hd, hs⟩ := Text.append_mark_inj rfl (hcomma i.d) (hcomma j.d) h
    exact ⟨Reg.text_injective hd, Reg.text_injective hs⟩
  case regImmediate =>
    obtain ⟨hd, himm⟩ := Text.append_mark_inj rfl (hcomma i.d) (hcomma j.d) h
    exact ⟨Reg.text_injective hd, UInt8.toNat_inj.mp (Text.hex_injective 1 himm)⟩
  case bank =>
    exact UInt8.toNat_inj.mp (Text.decimal_injective ((String.append_right_inj "#").mp h))
  case groupWindow =>
    obtain ⟨hlow, hd⟩ := Text.append_mark_inj rfl (hdot i.groupLow) (hdot j.groupLow) h
    exact ⟨Reg.text_injective hd, Reg.text_injective hlow⟩
  case regOffset =>
    obtain ⟨hd, hoffset⟩ := Text.append_mark_inj rfl (hcomma i.d) (hcomma j.d) h
    exact ⟨Reg.text_injective hd, Int8.toInt_inj.mp (Text.explicitlySigned_injective hoffset)⟩
  case reg => exact Reg.text_injective h
  case bitRegOffset =>
    have hdigits : ∀ n, ',' ∉ (Text.decimal n).toList := fun n hmem ↦
      Bool.noConfusion (Text.isAlphanum_of_mem_decimal hmem)
    -- the second comma is split off after the first, so the text behind it is put together again
    have hassoc : ∀ a b c d e : String, a ++ b ++ c ++ d ++ e = a ++ b ++ (c ++ d ++ e) := by
      intro a b c d e
      simp only [String.append_assoc]
    rw [hassoc, hassoc] at h
    obtain ⟨hbit, hrest⟩ := Text.append_mark_inj rfl (hdigits _) (hdigits _) h
    obtain ⟨hd, hoffset⟩ := Text.append_mark_inj rfl (hcomma i.d) (hcomma j.d) hrest
    exact ⟨Reg.text_injective hd, Int8.toInt_inj.mp (Text.explicitlySigned_injective hoffset),
      UInt8.toNat_inj.mp (Text.decimal_injective hbit)⟩
  case target12 => exact UInt16.toNat_inj.mp (Text.address_injective h)
  case target10 => exact UInt16.toNat_inj.mp (Text.address_injective h)
  case immediate10 =>
    exact UInt16.toNat_inj.mp (Text.hex_injective 3 ((String.append_right_inj "#0x").mp h))
  case immediate8 =>
    exact UInt8.toNat_inj.mp (Text.hex_injective 2 ((String.append_right_inj "#0x").mp h))

/-- The fields tell the operation, but for the zero test. -/
theorem Instruction.operation_eq_of_agree {i j : Instruction} (hform : i.form = j.form)
    (hagree : i.form.shape.Agree i j)
    (hzero : i.form = .cpjr → i.jumpsOnNonzero = j.jumpsOnNonzero) :
    i.operation = j.operation := by
  obtain ⟨word, form⟩ := i
  obtain ⟨word', form'⟩ := j
  obtain rfl : form = form' := hform
  -- one case for each form: its operation is built from the fields of its layout
  cases form <;> simp only [Form.shape, Shape.Agree] at hagree <;>
    simp_all [operation, registerStep, immediateStep, destination, source, windowExtent,
      groupSteps, groupRegisters, groupLength, groupReg]

/-! ## What words with the same text do -/

namespace Machine

/-! ### Zero tests -/

theorem wordsAway_eq_following_iff (m : Machine) (words : Int8) :
    m.wordsAway words = m.following ↔ words = 0 := by
  constructor
  · intro h
    have hbytes : (words.toInt16 * 2).toUInt16 = 0 := by simpa [wordsAway] using h
    have htwice : words.toInt16 * 2 = 0 := by
      rw [← Int16.toInt16_toUInt16 (words.toInt16 * 2), hbytes]
      rfl
    have hint := congrArg Int16.toInt htwice
    rw [Int16.toInt_mul, Int8.toInt_toInt16] at hint
    have hlo := words.le_toInt
    have hhi := words.toInt_lt
    -- an eight-bit offset can be doubled in sixteen bits without wrapping round
    have hmod : (words.toInt * 2).bmod (2 ^ 16) = words.toInt * 2 :=
      Int.bmod_eq_of_le (by omega) (by omega)
    have hint' : words.toInt * 2 = 0 := hmod.symm.trans hint
    rw [← Int8.toInt_inj]
    change words.toInt = 0
    omega
  · rintro rfl
    exact UInt16.add_zero _

/-- A zero test jumps when the register is what it looks for. -/
theorem execute_zeroTest (m : Machine) {inst : Instruction} (hform : inst.form = .cpjr) :
    execute inst m = .ok () (m.complete ⟨.keep,
      if (m.reg inst.d != 0) = inst.jumpsOnNonzero then m.wordsAway inst.offset5
      else m.following⟩) := by
  have hop : inst.operation
      = .branch (if inst.jumpsOnNonzero then .nonzero else .zero) inst.d inst.offset5 := by
    rw [Instruction.operation, hform]
  have hholds : (if inst.jumpsOnNonzero then Condition.nonzero else .zero).holds (m.reg inst.d)
      = ((m.reg inst.d != 0) == inst.jumpsOnNonzero) := by
    cases inst.jumpsOnNonzero
    · simp [Condition.holds, bne]
    · simp [Condition.holds, bne]
  have hperform : perform inst.operation m
      = .ok ⟨.keep, if (m.reg inst.d != 0) = inst.jumpsOnNonzero then m.wordsAway inst.offset5
        else m.following⟩ m := by
    rw [hop, perform, goTo, Faulting.view_apply, hholds]
    simp only [beq_iff_eq]
  exact Faulting.bind_of_ok hperform

/-- A machine all of whose registers are zero tells apart what two zero tests look for. -/
private theorem offset_eq_zero_of_execute_eq {i j : Instruction} (hi : i.form = .cpjr)
    (hj : j.form = .cpjr) (hd : i.d = j.d) (hoffset : i.offset5 = j.offset5)
    (h : ∀ m, execute i m = execute j m) (hne : i.jumpsOnNonzero ≠ j.jumpsOnNonzero) :
    i.offset5 = 0 := by
  let m : Machine := { memory := ⟨"memory", []⟩, ports := ⟨"io", []⟩ }
  have hzero : m.reg i.d = 0 := by simp [m, reg, RegisterFile.get, RegisterFile.zero]
  have hexec := h m
  rw [m.execute_zeroTest hi, m.execute_zeroTest hj, ← hd, ← hoffset, hzero] at hexec
  injection hexec with _ hmachine
  have hpc := congrArg (·.control.pc) hmachine
  rw [← m.wordsAway_eq_following_iff]
  -- every register is zero, so the test for zero jumps away and the other one does not
  cases hbit : i.jumpsOnNonzero <;> cases hbit' : j.jumpsOnNonzero
  · exact absurd (hbit.trans hbit'.symm) hne
  · simpa [complete, hbit, hbit'] using hpc
  · simpa [complete, hbit, hbit', eq_comm] using hpc
  · exact absurd (hbit.trans hbit'.symm) hne

/-! ### Listings -/

/-- **Equal text, equal behaviour**, but for zero tests that jump away and look for different
things. -/
theorem execute_eq_of_disassemble_eq {a b : UInt16} (h : disassemble a = disassemble b) :
    (Instruction.decode a = .error (.illegalOpcode a) ∧
      Instruction.decode b = .error (.illegalOpcode b)) ∨
    ∃ i j, Instruction.decode a = .ok i ∧ Instruction.decode b = .ok j ∧ i.form = j.form ∧
      ((∀ m, execute i m = execute j m) ↔
        (i.form = .cpjr → i.jumpsOnNonzero = j.jumpsOnNonzero ∨ i.offset5 = 0)) := by
  rcases disassemble_inj h with hillegal | ⟨i, j, ha, hb, hform, htext⟩
  · exact .inl hillegal
  refine .inr ⟨i, j, ha, hb, hform, ?_⟩
  have hagree := Instruction.agree_of_operandText hform htext
  constructor
  · intro hall hi
    have hj : j.form = .cpjr := hform ▸ hi
    rw [hi] at hagree
    obtain ⟨hd, hoffset⟩ := hagree
    by_cases hbit : i.jumpsOnNonzero = j.jumpsOnNonzero
    · exact .inl hbit
    · exact .inr (offset_eq_zero_of_execute_eq hi hj hd hoffset hall hbit)
  · intro hzero m
    by_cases hi : i.form = .cpjr ∧ i.jumpsOnNonzero ≠ j.jumpsOnNonzero
    · obtain ⟨hi, hbit⟩ := hi
      have hj : j.form = .cpjr := hform ▸ hi
      rw [hi] at hagree
      obtain ⟨-, hoffset⟩ := hagree
      have hnowhere := (hzero hi).resolve_left hbit
      have haway := (m.wordsAway_eq_following_iff i.offset5).mpr hnowhere
      rw [m.execute_zeroTest hi, m.execute_zeroTest hj, ← hoffset, haway, ite_self, ite_self]
    · have hop : i.operation = j.operation := Instruction.operation_eq_of_agree hform hagree
        fun hcpjr ↦ not_not.mp fun hne ↦ hi ⟨hcpjr, hne⟩
      rw [execute, execute, hop]

/-- `CPJR R1, +2` is the text of two words, and they behave differently. -/
theorem execute_ne_of_disassemble_eq :
    disassemble 0x8822 = disassemble 0x8C22 ∧
      ∃ i j, Instruction.decode 0x8822 = .ok i ∧ Instruction.decode 0x8C22 = .ok j ∧
        ¬∀ m, execute i m = execute j m := by
  have htext : disassemble 0x8822 = disassemble 0x8C22 := by decide
  refine ⟨htext, ?_⟩
  rcases execute_eq_of_disassemble_eq htext with ⟨hillegal, -⟩ | ⟨i, j, hi, hj, -, hiff⟩
  · cases hillegal
  · refine ⟨i, j, hi, hj, fun hall ↦ ?_⟩
    have hzero := hiff.mp hall
    cases hi
    cases hj
    rcases hzero rfl with hbit | hoffset
    · exact absurd hbit (by decide)
    · exact absurd hoffset (by decide)

end Machine

end CalcWatch
