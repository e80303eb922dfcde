import CalcWatch.Instruction
import Mathlib.Data.List.FinRange

/-!
# Cells and windows

What an operation does to the registers is said cell by cell. This module has the two things that
are needed for that: what a sequence of steps does to the cells of a file, and which cells the
windows of an instruction consist of.

## Cells of the register file

A register file is a table of cells, four banks of thirty-two, and a register of a bank picks one of
them. What an operation changes is stated as a list of cells: outside of it, the file before and the
file after agree. The sequences of steps that instructions fold over the file then need one lemma
each, since a step changes the cell of its target and nothing else.

## Where windows lie

A window turns round modulo thirty-two and a group window inside its group of eight, so the places
of their registers are sums reduced modulo thirty-two or eight. Everything an instruction needs of
its windows follows from two facts. A window has at most eight registers, and the first registers of
its two windows are congruent modulo eight. Hence register `i` of one window can coincide with
register `j` of the other only if `i = j`: the two windows are the same or have nothing in common.
-/

namespace CalcWatch

/-! ## Cells of the register file -/

/-- The position of a register in the file: its bank, and its place in the bank. -/
abbrev Cell := Fin 4 × Fin 32

/-- The cell that a register of a bank picks. -/
def Bank.cell (bank : Bank) (r : Reg) : Cell := (bank.slot, r.slot)

theorem Bank.cell_inj {bank : Bank} {r r' : Reg} :
    bank.cell r = bank.cell r' ↔ r.slot = r'.slot := by
  rw [cell, cell, Prod.mk.injEq]
  exact and_iff_right rfl

theorem map_cell_target_subset (bank : Bank) {steps : List Assignment} {regs : List Reg}
    (h : steps.map (·.target) ⊆ regs) :
    (steps.map fun step ↦ bank.cell step.target) ⊆ regs.map bank.cell := by
  rw [← Function.comp_def bank.cell, ← List.map_map]
  exact List.map_subset _ h

namespace RegisterFile

def peek (file : RegisterFile) (c : Cell) : UInt8 := file.banks[c.1][c.2]

theorem get_eq_peek (file : RegisterFile) (bank : Bank) (r : Reg) :
    file.get bank r = file.peek (bank.cell r) := rfl

/-- Only the places of the bank and the register matter. -/
theorem get_congr (file : RegisterFile) {bank bank' : Bank} {r r' : Reg}
    (hbank : bank.slot = bank'.slot) (hr : r.slot = r'.slot) :
    file.get bank r = file.get bank' r' := by
  rw [get_eq_peek, get_eq_peek, Bank.cell, Bank.cell, hbank, hr]

theorem peek_set (file : RegisterFile) (bank : Bank) (r : Reg) (value : UInt8) (c : Cell) :
    (file.set bank r value).peek c = if c = bank.cell r then value &&& 0x0F else file.peek c := by
  obtain ⟨b, i⟩ := c
  by_cases hb : b = bank.slot
  · subst hb
    by_cases hi : i = r.slot
    · subst hi
      simp [peek, set, Bank.cell]
    · have hne : r.slot.val ≠ i.val := fun e ↦ hi (Fin.ext e.symm)
      simp [peek, set, Bank.cell, hi, Vector.getElem_set_ne, hne]
  · have hne : bank.slot.val ≠ b.val := fun e ↦ hb (Fin.ext e.symm)
    simp [peek, set, Bank.cell, hb, Vector.getElem_set_ne, hne]

theorem eq_of_peek {file file' : RegisterFile} (h : ∀ c, file'.peek c = file.peek c) :
    file' = file := by
  obtain ⟨banks⟩ := file
  obtain ⟨banks'⟩ := file'
  congr 1
  ext b hb i hi
  exact congrArg UInt8.toNat (h (⟨b, hb⟩, ⟨i, hi⟩))

/-! ### Agreement outside of some cells -/

/-- The file `file'` differs from `file` in the given cells at most. -/
def AgreeOff (cells : List Cell) (file file' : RegisterFile) : Prop :=
  ∀ c ∉ cells, file'.peek c = file.peek c

variable {cells cells' : List Cell} {file file' file'' : RegisterFile}

theorem AgreeOff.refl (cells : List Cell) (file : RegisterFile) : AgreeOff cells file file :=
  fun _ _ ↦ rfl

theorem AgreeOff.trans (h : AgreeOff cells file file') (h' : AgreeOff cells file' file'') :
    AgreeOff cells file file'' :=
  fun c hc ↦ (h' c hc).trans (h c hc)

theorem AgreeOff.mono (h : AgreeOff cells file file') (hsub : cells ⊆ cells') :
    AgreeOff cells' file file' :=
  fun c hc ↦ h c fun hmem ↦ hc (hsub hmem)

theorem agreeOff_set {bank : Bank} {r : Reg} (value : UInt8) (hmem : bank.cell r ∈ cells) :
    AgreeOff cells file (file.set bank r value) := by
  intro c hc
  rw [peek_set, if_neg]
  rintro rfl
  exact hc hmem

theorem agreeOff_clearBank (file : RegisterFile) (bank : Bank) :
    AgreeOff ((List.finRange 32).map (bank.slot, ·)) file (file.clearBank bank) := by
  rintro ⟨b, i⟩ hc
  have hb : bank.slot.val ≠ b.val := by
    intro e
    rw [← Fin.ext e] at hc
    exact hc (List.mem_map_of_mem (List.mem_finRange i))
  simp [peek, clearBank, Vector.getElem_set_ne, hb]

/-! ### Sequences of steps

Both folds are inductions on the list of steps with the same invariant: the file reached so far
agrees with the first one outside of the targets. -/

theorem agreeOff_assign (dst src : Bank) (steps : List Assignment) (file : RegisterFile) :
    AgreeOff (steps.map fun step ↦ dst.cell step.target) file (file.assign dst src steps) := by
  induction steps generalizing file with
  | nil => exact AgreeOff.refl _ _
  | cons step steps ih =>
    have hfirst : AgreeOff ((step :: steps).map fun step ↦ dst.cell step.target) file
        (file.set dst step.target (step.operand.value file src)) :=
      agreeOff_set _ (List.mem_map_of_mem List.mem_cons_self)
    exact hfirst.trans ((ih _).mono (List.subset_cons_self _ _))

theorem ripple_cons (bank : Bank) (op : DigitOp) (file : RegisterFile) (carry : Bool)
    (step : Assignment) (steps : List Assignment) :
    file.ripple bank op carry (step :: steps)
      = (file.set bank step.target
          (op.apply (file.get bank step.target) (step.operand.value file bank) carry).1).ripple bank
          op (op.apply (file.get bank step.target) (step.operand.value file bank) carry).2 steps :=
  rfl

theorem agreeOff_ripple (bank : Bank) (op : DigitOp) (steps : List Assignment)
    (file : RegisterFile) (carry : Bool) :
    AgreeOff (steps.map fun step ↦ bank.cell step.target) file
      (file.ripple bank op carry steps).1 := by
  induction steps generalizing file carry with
  | nil => exact AgreeOff.refl _ _
  | cons step steps ih =>
    rw [ripple_cons]
    have hfirst : AgreeOff ((step :: steps).map fun step ↦ bank.cell step.target) file
        (file.set bank step.target
          (op.apply (file.get bank step.target) (step.operand.value file bank) carry).1) :=
      agreeOff_set _ (List.mem_map_of_mem List.mem_cons_self)
    exact hfirst.trans ((ih _ _).mono (List.subset_cons_self _ _))

end RegisterFile

/-! ### Steps that spare each other -/

/-- The later step neither changes nor reads the register that the earlier one changes. -/
def Assignment.Spares (earlier later : Assignment) : Prop :=
  earlier.target.slot ≠ later.target.slot ∧
    ∀ r, later.operand = .register r → earlier.target.slot ≠ r.slot

namespace Assignment.Spares

variable {earlier later : Assignment} {target r : Reg}

theorem register (htarget : earlier.target.slot ≠ target.slot) (hr : earlier.target.slot ≠ r.slot) :
    earlier.Spares ⟨target, .register r⟩ := by
  refine ⟨htarget, ?_⟩
  rintro _ ⟨⟩
  exact hr

theorem immediate (htarget : earlier.target.slot ≠ target.slot) (value : UInt8) :
    earlier.Spares ⟨target, .immediate value⟩ := by
  refine ⟨htarget, ?_⟩
  rintro _ ⟨⟩

theorem get_target_set (h : earlier.Spares later) (file : RegisterFile) (bank : Bank)
    (value : UInt8) :
    (file.set bank earlier.target value).get bank later.target = file.get bank later.target :=
  file.get_set_of_slot_ne value (Or.inr h.1)

theorem value_operand_set (h : earlier.Spares later) (file : RegisterFile) (bank bank' : Bank)
    (value : UInt8) :
    later.operand.value (file.set bank earlier.target value) bank'
      = later.operand.value file bank' := by
  cases hop : later.operand with
  | register r => exact file.get_set_of_slot_ne value (Or.inr (h.2 r hop))
  | immediate value => rfl

end Assignment.Spares

/-- Steps that spare each other might as well be taken all at once. -/
theorem RegisterFile.get_assign_of_mem {dst src : Bank} {steps : List Assignment}
    (hspares : steps.Pairwise Assignment.Spares) {step : Assignment} (hmem : step ∈ steps)
    (file : RegisterFile) :
    (file.assign dst src steps).get dst step.target
      = step.operand.value file src &&& 0x0F := by
  induction steps generalizing file with
  | nil => cases hmem
  | cons first steps ih =>
    obtain ⟨hfirst, hspares⟩ := List.pairwise_cons.mp hspares
    rcases List.mem_cons.mp hmem with rfl | hlater
    · have hlast : dst.cell step.target ∉ steps.map fun later ↦ dst.cell later.target := by
        intro hcell
        obtain ⟨later, hlater, heq⟩ := List.mem_map.mp hcell
        exact (hfirst later hlater).1 (Bank.cell_inj.mp heq).symm
      exact (agreeOff_assign dst src steps _ _ hlast).trans (file.get_set_self dst step.target _)
    · rw [← (hfirst step hlater).value_operand_set file dst src
        (first.operand.value file src)]
      exact ih hspares hlater _

/-! ## Where windows lie -/

/-! ### Fields of the word -/

theorem Reg.slot_ofByte (b : UInt8) : (Reg.ofByte b).slot.val = b.toNat % 32 := by
  rw [slot, Fin.val_ofNat, toNat_number_ofByte, Nat.mod_mod]

theorem Reg.slot_up (r : Reg) (n : Nat) :
    (r.up (UInt8.ofNat n)).slot.val = (r.number.toNat + n) % 32 := by
  rw [up, slot_ofByte, UInt8.toNat_add, UInt8.toNat_ofNat']
  omega

theorem Window.slot_reg (w : Window) (i : Nat) :
    (w.reg i).slot.val = (w.first.number.toNat + i) % 32 :=
  w.first.slot_up i

theorem Window.slot_reg_zero (w : Window) : (w.reg 0).slot = w.first.slot := by
  rw [Fin.ext_iff, slot_reg, Nat.add_zero, Reg.slot, Fin.val_ofNat]

/-- A window no longer than a bank has a different register in every place. -/
theorem Window.slot_reg_ne {w : Window} (hlength : w.length ≤ 32) {i j : ℕ} (hij : i < j)
    (hj : j < w.length) : (w.reg i).slot ≠ (w.reg j).slot := by
  rw [Ne, Fin.ext_iff, slot_reg, slot_reg]
  omega

/-- The steps that store digits in the registers of a window, the first one in the top register. -/
def Window.fillSteps (w : Window) (digits : List UInt8) : List Assignment :=
  (w.registers.reverse.zip digits).map fun cell ↦ ⟨cell.1, .immediate cell.2⟩

theorem Window.agreeOff_fillSteps (w : Window) (digits : List UInt8) (file : RegisterFile)
    (bank : Bank) : file.AgreeOff (w.registers.map bank.cell)
      (file.assign bank bank (w.fillSteps digits)) := by
  have hsubset : (w.fillSteps digits).map (·.target) ⊆ w.registers := by
    intro r hr
    rw [fillSteps, List.map_map] at hr
    obtain ⟨cell, hcell, rfl⟩ := List.mem_map.mp hr
    exact List.mem_reverse.mp (List.of_mem_zip hcell).1
  exact (RegisterFile.agreeOff_assign bank bank _ file).mono (map_cell_target_subset bank hsubset)

namespace Instruction

variable (inst : Instruction)

theorem toNat_windowExtent :
    inst.windowExtent.toNat = (inst.s.number.toNat + (256 - inst.d.number.toNat)) % 8 := by
  have hd := inst.d.number.toNat_lt
  rw [windowExtent, UInt8.toNat_and, UInt8.toNat_sub]
  rw [show (0x07 : UInt8).toNat = 2 ^ 3 - 1 from rfl, Nat.and_two_pow_sub_one_eq_mod]
  omega

theorem toNat_windowExtent_lt : inst.windowExtent.toNat < 8 := by
  rw [toNat_windowExtent]
  exact Nat.mod_lt _ (by decide)

theorem slot_destination (i : Nat) :
    (inst.destination.reg i).slot.val = (inst.d.number.toNat + i) % 32 :=
  inst.destination.slot_reg i

theorem slot_source (i : Nat) :
    (inst.source.reg i).slot.val
      = (inst.s.number.toNat + (256 - inst.windowExtent.toNat) + i) % 32 := by
  have hk := inst.toNat_windowExtent_lt
  rw [Window.slot_reg, source, Reg.down, Reg.toNat_number_ofByte, UInt8.toNat_sub]
  omega

theorem length_destination_le : inst.destination.length ≤ 8 :=
  Nat.succ_le_of_lt inst.toNat_windowExtent_lt

theorem length_destination_le_bank : inst.destination.length ≤ 32 :=
  inst.length_destination_le.trans (by decide)

theorem slot_destination_ne {i j : Nat} (hij : i < j) (hj : j < inst.destination.length) :
    (inst.destination.reg i).slot ≠ (inst.destination.reg j).slot :=
  Window.slot_reg_ne inst.length_destination_le_bank hij hj

/-- The windows of an instruction meet in corresponding places only. -/
theorem slot_destination_ne_source {i j : Nat} (hij : i < j) (hj : j < inst.destination.length) :
    (inst.destination.reg i).slot ≠ (inst.source.reg j).slot := by
  have hlen : inst.destination.length = inst.windowExtent.toNat + 1 := rfl
  -- the extent makes the two first registers congruent modulo eight, which is all omega needs
  have hext := inst.toNat_windowExtent
  have hd := inst.d.number.toNat_lt
  rw [Ne, Fin.ext_iff, slot_destination, slot_source]
  omega

/-! The windows depend on the two registers alone. -/

theorem destination_congr {i j : Instruction} (hd : i.d = j.d) (hs : i.s = j.s) :
    i.destination = j.destination := by
  rw [destination, destination, windowExtent, windowExtent, hd, hs]

theorem source_congr {i j : Instruction} (hd : i.d = j.d) (hs : i.s = j.s) :
    i.source = j.source := by
  rw [source, source, windowExtent, windowExtent, hd, hs]

/-! ### The group window -/

theorem toNat_groupByte (a b : UInt8) :
    ((a &&& 0x18) ||| (b &&& 0x07)).toNat = 8 * (a.toNat / 8 % 4) + b.toNat % 8 := by
  have hhigh : ∀ x < 256, x &&& 24 = 8 * (x / 8 % 4) := by decide +kernel
  have hlow : b.toNat &&& 7 = b.toNat % 8 := Nat.and_two_pow_sub_one_eq_mod b.toNat 3
  rw [UInt8.toNat_or, UInt8.toNat_and, UInt8.toNat_and]
  change (a.toNat &&& 24) ||| (b.toNat &&& 7) = _
  rw [hhigh a.toNat a.toNat_lt, hlow]
  exact (Nat.two_pow_add_eq_or_of_lt (Nat.mod_lt _ (by decide : 0 < 2 ^ 3)) _).symm

theorem slot_groupReg (i : Nat) :
    (inst.groupReg (UInt8.ofNat i)).slot.val
      = 8 * (inst.d.number.toNat / 8 % 4) + (inst.groupLow.number.toNat + i) % 8 := by
  rw [groupReg, Reg.slot_ofByte, toNat_groupByte, UInt8.toNat_add, UInt8.toNat_ofNat']
  omega

theorem toNat_groupLength :
    inst.groupLength.toNat
      = (inst.d.number.toNat + (256 - inst.groupLow.number.toNat)) % 8 + 1 := by
  have hlow := inst.groupLow.number.toNat_lt
  have hand : ((inst.d.number - inst.groupLow.number) &&& 0x07).toNat
      = (inst.d.number - inst.groupLow.number).toNat % 8 :=
    Nat.and_two_pow_sub_one_eq_mod _ 3
  rw [groupLength, UInt8.toNat_add, hand, UInt8.toNat_sub, show (1 : UInt8).toNat = 1 from rfl]
  omega

theorem slot_groupReg_ne {i j : Nat} (hij : i < j) (hj : j < inst.groupLength.toNat) :
    (inst.groupReg (UInt8.ofNat i)).slot ≠ (inst.groupReg (UInt8.ofNat j)).slot := by
  have hlen := inst.toNat_groupLength
  rw [Ne, Fin.ext_iff, slot_groupReg, slot_groupReg]
  omega

/-! ### Steps over windows

The first windows instruction reads its source after it has begun to write its destination. That
does no harm: the steps of windowed arithmetic spare each other. -/

theorem map_target_zipWith (w other : Window) :
    (w.zipWith other).map (·.target) = w.registers := by
  rw [Window.zipWith, List.map_map]
  rfl

theorem map_target_zipDown (w : Window) (r : Reg) :
    (w.zipDown r).map (·.target) = w.registers := by
  rw [Window.zipDown, List.map_map]
  rfl

theorem map_target_clear (w : Window) : w.clear.map (·.target) = w.registers := by
  rw [Window.clear, List.map_map]
  exact List.map_id _

theorem reg_mem_registers {w : Window} {i : ℕ} (hi : i < w.length) : w.reg i ∈ w.registers :=
  List.mem_map_of_mem (List.mem_range.mpr hi)

theorem destination_reg_zero : inst.destination.reg 0 = inst.d := by
  have hbyte : ∀ b : UInt8, (Reg.ofByte b).up 0 = Reg.ofByte b := by
    intro b
    rw [Reg.up, UInt8.add_zero, Reg.ofByte, Reg.ofByte, UInt8.and_assoc, UInt8.and_self]
  exact hbyte _

theorem target_shiftUp_subset :
    inst.destination.shiftUp.map (·.target) ⊆ inst.destination.registers := by
  rw [Window.shiftUp, List.map_append, List.map_map, List.append_subset]
  constructor
  · intro r hr
    obtain ⟨i, hi, rfl⟩ := List.mem_map.mp hr
    have hi' := List.mem_range.mp (List.mem_reverse.mp hi)
    exact reg_mem_registers (by omega)
  · -- the last step clears the first register of the window, which is named by its number
    intro r hr
    obtain rfl := List.mem_singleton.mp hr
    change inst.d ∈ _
    rw [← inst.destination_reg_zero]
    exact reg_mem_registers (Nat.succ_pos _)

theorem target_shiftDown_subset :
    inst.destination.shiftDown.map (·.target) ⊆ inst.destination.registers := by
  rw [Window.shiftDown, List.map_append, List.map_map, List.append_subset]
  constructor
  · intro r hr
    obtain ⟨i, hi, rfl⟩ := List.mem_map.mp hr
    have hi' := List.mem_range.mp hi
    exact reg_mem_registers (by omega)
  · intro r hr
    obtain rfl := List.mem_singleton.mp hr
    exact reg_mem_registers (Nat.lt_succ_self _)

theorem map_target_groupSteps : inst.groupSteps.map (·.target) = inst.groupRegisters := by
  rw [groupSteps, List.map_map]
  exact List.map_id _

theorem pairwise_spares_windows :
    (inst.destination.zipWith inst.source).Pairwise Assignment.Spares := by
  rw [Window.zipWith, List.pairwise_map]
  refine List.pairwise_lt_range.imp_of_mem fun {i j} _ hj hij ↦ ?_
  have hj' := List.mem_range.mp hj
  exact .register (inst.slot_destination_ne hij hj') (inst.slot_destination_ne_source hij hj')

theorem pairwise_spares_group : inst.groupSteps.Pairwise Assignment.Spares := by
  rw [groupSteps, groupRegisters, List.map_map, List.pairwise_map]
  refine List.pairwise_lt_range.imp_of_mem fun {i j} _ hj hij ↦ ?_
  exact .immediate (inst.slot_groupReg_ne hij (List.mem_range.mp hj)) 0

end Instruction

end CalcWatch
