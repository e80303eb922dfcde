import CalcWatch.Proofs.Arithmetic.Binary
import CalcWatch.Proofs.Transfers

/-!
# Moves of windows

Moves are made one register after the other. This module says when that makes no difference, what
becomes of the one move for which it does, and what the moves within one window make of the number
in it.

## Moves at once

Instructions that move digits do it one register after the other. What they leave is easier to say
as a function of what they found, as if all registers had been read before the first one was
written. That is how it is whenever no step changes a register that a later step changes or reads.

## The move that runs against itself

One window move fills its window upwards while it reads downwards, from the first register of the
source window. The two runs get into each other's way only if the source window begins eight
registers above the destination. Then the sixth register to be read has been filled before, and so
have the following ones. What was put there came from the very register that is to be filled now: it
gets back what it held, and from there on the move changes nothing.

## Moves inside of a window

A shift fills the very window that it reads, and so does a move between banks if both are one bank.
Both go through the window in an order in which every register is read before it is filled, so what
they leave is what the registers held at the beginning. Moving the digits of a number up by one
place multiplies it by the base, and moving them down divides it.
-/

namespace CalcWatch

/-! ## Moves at once -/

theorem Window.mem_map_cell_registers {w : Window} {bank : Bank} {c : Cell} :
    c ∈ w.registers.map bank.cell ↔ ∃ i < w.length, bank.cell (w.reg i) = c := by
  rw [registers, List.map_map, List.mem_map]
  simp only [List.mem_range, Function.comp_apply]

namespace Machine

variable {m m' : Machine} {inst : Instruction} {role dst src : BankRole} {w : Window}
  {value value' : ℕ → UInt8} {steps : List Assignment}

/-! ### What a move leaves -/

/-- From `m` to `m'` the registers of a window took their values, all of them at once, and nothing
else has changed but the program counter. -/
structure Moves (m : Machine) (role : BankRole) (w : Window) (value : ℕ → UInt8) (m' : Machine) :
    Prop where
  /-- A register takes what belongs into a digit of its value. -/
  get_eq : ∀ i < w.length, m'.registers.get (m.bank role) (w.reg i) = value i &&& 0x0F
  /-- Where registers hold digits, their values are taken as they are. -/
  digit : m.registers.Nibbles → ∀ i < w.length,
    m'.registers.get (m.bank role) (w.reg i) = value i
  /-- No other register has changed. -/
  others : m.registers.AgreeOff (w.registers.map (m.bank role).cell) m'.registers
  eq : m' = { m with
    registers := m'.registers, control := { m.control with pc := m.following } }

namespace Moves

theorem congr (h : m.Moves role w value m') (hvalue : ∀ i < w.length, value i = value' i) :
    m.Moves role w value' m' where
  get_eq i hi := hvalue i hi ▸ h.get_eq i hi
  digit hnibbles i hi := hvalue i hi ▸ h.digit hnibbles i hi
  others := h.others
  eq := h.eq

theorem bank (h : m.Moves role w value m') (role' : BankRole) : m'.bank role' = m.bank role' := by
  rw [h.eq]
  cases role' <;> rfl

theorem get_of_ne (h : m.Moves role w value m') {bank : Bank} {r : Reg}
    (hne : (m.bank role).slot ≠ bank.slot ∨ ∀ i < w.length, (w.reg i).slot ≠ r.slot) :
    m'.registers.get bank r = m.registers.get bank r := by
  refine h.others (bank.cell r) ?_
  intro hmem
  obtain ⟨i, hi, hcell⟩ := Window.mem_map_cell_registers.mp hmem
  obtain ⟨hbank, hslot⟩ := Prod.mk.inj hcell
  rcases hne with hne | hne
  · exact hne hbank
  · exact hne i hi hslot

theorem nibbles (h : m.Moves role w value m') (hnibbles : m.registers.Nibbles) :
    m'.registers.Nibbles := by
  intro c
  by_cases hmem : c ∈ w.registers.map (m.bank role).cell
  · obtain ⟨i, hi, rfl⟩ := Window.mem_map_cell_registers.mp hmem
    rw [← RegisterFile.get_eq_peek, h.get_eq i hi]
    exact UInt8.and_le_right
  · rw [h.others c hmem]
    exact hnibbles c

end Moves

/-! ### Assignments -/

theorem execute_assign (hop : inst.operation = .assign dst src steps) (m : Machine) :
    execute inst m = .ok () { m with
      registers := m.registers.assign (m.bank dst) (m.bank src) steps
      control := { m.control with pc := m.following } } := by
  rw [execute, hop]
  rfl

/-- If the registers of the window have taken what belongs into a digit of their values, the values
have been moved. -/
theorem exists_moves_of_get_assign (hop : inst.operation = .assign dst src steps)
    (htargets : steps.map (·.target) ⊆ w.registers)
    (hget : ∀ i < w.length, (m.registers.assign (m.bank dst) (m.bank src) steps).get (m.bank dst)
      (w.reg i) = value i &&& 0x0F)
    (hdigit : m.registers.Nibbles → ∀ i < w.length, value i ≤ 15) :
    ∃ m', execute inst m = .ok () m' ∧ m.Moves dst w value m' := by
  refine ⟨_, execute_assign hop m, hget, ?_, ?_, rfl⟩
  · intro hnibbles i hi
    exact (hget i hi).trans (digit_and (hdigit hnibbles i hi))
  · exact (RegisterFile.agreeOff_assign _ _ steps m.registers).mono
      (map_cell_target_subset _ htargets)

/-- Steps that spare each other move their operands at once. -/
theorem exists_moves_of_spares (hop : inst.operation = .assign dst src steps)
    (hspares : steps.Pairwise Assignment.Spares)
    (htargets : steps.map (·.target) ⊆ w.registers)
    (hsteps : ∀ i < w.length, ∃ step ∈ steps, step.target.slot = (w.reg i).slot ∧
      step.operand.value m.registers (m.bank src) = value i)
    (hdigit : m.registers.Nibbles → ∀ i < w.length, value i ≤ 15) :
    ∃ m', execute inst m = .ok () m' ∧ m.Moves dst w value m' := by
  refine exists_moves_of_get_assign hop htargets ?_ hdigit
  intro i hi
  obtain ⟨step, hmem, hslot, hvalue⟩ := hsteps i hi
  rw [← RegisterFile.get_congr _ rfl hslot, RegisterFile.get_assign_of_mem hspares hmem, hvalue]

end Machine

/-! ## The move that runs against itself -/

section

/-! ### Where the runs meet -/

theorem Reg.ofByte_eq_iff {b c : UInt8} : ofByte b = ofByte c ↔ b.toNat % 32 = c.toNat % 32 := by
  constructor
  · intro h
    rw [← toNat_number_ofByte, h, toNat_number_ofByte]
  · intro h
    rw [← toNat_number_ofByte, ← toNat_number_ofByte c] at h
    exact congrArg Reg.mk (UInt8.toNat_inj.mp h)

theorem Reg.slot_down (r : Reg) {n : ℕ} (hn : n ≤ 256) :
    (r.down (UInt8.ofNat n)).slot.val = (r.number.toNat + (256 - n)) % 32 := by
  rw [down, slot_ofByte, UInt8.toNat_sub, UInt8.toNat_ofNat']
  omega

namespace Instruction

variable (inst : Instruction)

/-- Register `i` of the run downwards from the first register of the source window. -/
def readReg (i : ℕ) : Reg := inst.source.first.down (UInt8.ofNat i)

/-- The source window begins eight registers above the destination window. -/
def RunsMeet : Prop := inst.source.first = inst.d.up 8

instance : Decidable inst.RunsMeet := inferInstanceAs (Decidable (_ = _))

variable {inst} {i j : ℕ}

theorem slot_readReg (hi : i ≤ 256) : (inst.readReg i).slot.val
    = (inst.s.number.toNat + (256 - inst.windowExtent.toNat) + (256 - i)) % 32 := by
  rw [readReg, Reg.slot_down _ hi, source, Reg.down, Reg.toNat_number_ofByte, UInt8.toNat_sub]
  omega

theorem runsMeet_iff : inst.RunsMeet ↔
    (inst.s.number.toNat + (256 - inst.windowExtent.toNat)) % 32
      = (inst.d.number.toNat + 8) % 32 := by
  have hk := inst.toNat_windowExtent_lt
  rw [RunsMeet, source, Reg.down, Reg.up, Reg.ofByte_eq_iff, UInt8.toNat_sub, UInt8.toNat_add,
    show (8 : UInt8).toNat = 8 from rfl]
  omega

/-- Where the runs have met, either run goes through what the other one has left behind. -/
theorem slot_destination_eq (hmeet : inst.RunsMeet) (hij : i + j = 8) :
    (inst.destination.reg i).slot = (inst.readReg j).slot := by
  rw [runsMeet_iff] at hmeet
  rw [Fin.ext_iff, slot_destination, slot_readReg (by omega)]
  omega

/-- A register that has been filled before is read nowhere else. -/
theorem runsMeet_of_slot_eq (hji : j < i) (hi : i < inst.destination.length)
    (h : (inst.destination.reg j).slot = (inst.readReg i).slot) : inst.RunsMeet ∧ i + j = 8 := by
  have hlen : inst.destination.length = inst.windowExtent.toNat + 1 := rfl
  have hext := inst.toNat_windowExtent
  have hk := inst.toNat_windowExtent_lt
  have hd := inst.d.number.toNat_lt
  rw [Fin.ext_iff, slot_destination, slot_readReg (by omega)] at h
  rw [runsMeet_iff]
  omega

end Instruction

/-! ### What the move leaves -/

open Instruction (slot_destination_eq runsMeet_of_slot_eq)

/-- The digit that register `i` of the destination window ends up with. -/
def RegisterFile.readDown (file : RegisterFile) (bank : Bank) (inst : Instruction) (i : ℕ) :
    UInt8 :=
  if inst.RunsMeet ∧ 5 ≤ i then file.get bank (inst.destination.reg i)
  else file.get bank (inst.readReg i)

namespace RegisterFile

variable (file : RegisterFile) (bank : Bank) (inst : Instruction)

def filled (n : ℕ) : RegisterFile :=
  file.assign bank bank (Window.zipDown ⟨inst.d, n⟩ inst.source.first)

theorem filled_succ (n : ℕ) : file.filled bank inst (n + 1)
    = (file.filled bank inst n).set bank (inst.destination.reg n)
        ((file.filled bank inst n).get bank (inst.readReg n)) := by
  rw [filled, Window.zipDown, List.range_succ, List.map_append, assign, List.foldl_append]
  rfl

theorem get_filled_of_ne {n : ℕ} {r : Reg} (h : ∀ j < n, (inst.destination.reg j).slot ≠ r.slot) :
    (file.filled bank inst n).get bank r = file.get bank r := by
  refine agreeOff_assign bank bank _ file (bank.cell r) ?_
  intro hmem
  obtain ⟨step, hstep, hcell⟩ := List.mem_map.mp hmem
  obtain ⟨j, hj, rfl⟩ := List.mem_map.mp hstep
  exact h j (List.mem_range.mp hj) (Bank.cell_inj.mp hcell)

/-- What is read for register `n` when the registers before it have been filled. -/
theorem get_filled_readReg {n : ℕ} (hn : n < inst.destination.length)
    (hfilled : ∀ i < n, (file.filled bank inst n).get bank (inst.destination.reg i)
      = file.readDown bank inst i &&& 0x0F) :
    (file.filled bank inst n).get bank (inst.readReg n) &&& 0x0F
      = file.readDown bank inst n &&& 0x0F := by
  rw [readDown]
  by_cases hback : inst.RunsMeet ∧ 5 ≤ n
  · -- the register was filled from the one that is filled now
    obtain ⟨hmeet, hfive⟩ := hback
    have hlen := inst.length_destination_le
    have hread : (file.filled bank inst n).get bank (inst.readReg n)
        = file.readDown bank inst (8 - n) &&& 0x0F := by
      rw [← get_congr _ rfl (slot_destination_eq hmeet (show 8 - n + n = 8 by omega))]
      exact hfilled (8 - n) (by omega)
    have horigin : file.readDown bank inst (8 - n) = file.get bank (inst.destination.reg n) := by
      rw [readDown, if_neg (by omega)]
      exact get_congr _ rfl (slot_destination_eq hmeet (by omega)).symm
    rw [if_pos ⟨hmeet, hfive⟩, hread, horigin, UInt8.and_assoc, UInt8.and_self]
  · rw [if_neg hback, get_filled_of_ne]
    intro j hj hslot
    obtain ⟨hmeet, hsum⟩ := runsMeet_of_slot_eq hj hn hslot
    exact hback ⟨hmeet, by omega⟩

/-- The induction is on the number of registers that have been filled. -/
theorem get_filled {n : ℕ} (hn : n ≤ inst.destination.length) :
    ∀ i < n, (file.filled bank inst n).get bank (inst.destination.reg i)
      = file.readDown bank inst i &&& 0x0F := by
  induction n with
  | zero => exact fun i hi ↦ absurd hi (Nat.not_lt_zero i)
  | succ n ih =>
    have ih := ih (Nat.le_of_succ_le hn)
    intro i hi
    rw [filled_succ]
    rcases Nat.lt_succ_iff_lt_or_eq.mp hi with hlt | rfl
    · rw [get_set_of_slot_ne _ _ (.inr (inst.slot_destination_ne hlt hn).symm)]
      exact ih i hlt
    · rw [get_set_self]
      exact file.get_filled_readReg bank inst hn ih

end RegisterFile

namespace Machine

variable {inst : Instruction}

theorem exists_moves_readDown (hform : inst.form = .movm) (m : Machine) :
    ∃ m', execute inst m = .ok () m' ∧
      m.Moves .current inst.destination (m.registers.readDown (m.bank .current) inst) m' := by
  have hop : inst.operation
      = .assign .current .current (inst.destination.zipDown inst.source.first) := by
    rw [Instruction.operation, hform]
  refine exists_moves_of_get_assign hop ?_ ?_ ?_
  · rw [Instruction.map_target_zipDown]
    exact List.Subset.refl _
  · exact m.registers.get_filled (m.bank .current) inst le_rfl
  · intro hnibbles i _
    rw [RegisterFile.readDown]
    split <;> exact hnibbles.get_le _ _

/-- A machine with a digit in the sixth register of the destination window, and none elsewhere. -/
private def marked (inst : Instruction) : Machine where
  registers := RegisterFile.zero.set ⟨0⟩ (inst.destination.reg 5) 1
  memory := ⟨"memory", []⟩
  ports := ⟨"io", []⟩

/-- Where the runs meet, a machine can tell the move from one that reads all registers first. -/
theorem exists_not_moves (hform : inst.form = .movm) (hmeet : inst.RunsMeet)
    (hfive : 5 ≤ inst.windowExtent.toNat) : ∃ m : Machine, m.registers.Nibbles ∧
      ∀ m', execute inst m = .ok () m' →
        ¬m.Moves .current inst.destination (fun i ↦ m.reg (inst.readReg i)) m' := by
  have hlength : 5 < inst.destination.length := Nat.lt_succ_of_le hfive
  have hnibbles : (marked inst).registers.Nibbles := RegisterFile.nibbles_zero.set _ _ _
  refine ⟨marked inst, hnibbles, ?_⟩
  intro m' hexec hmoves
  obtain ⟨_, hexec', hmoves'⟩ := exists_moves_readDown hform (marked inst)
  rw [hexec] at hexec'
  cases hexec'
  -- the sixth register keeps its digit, although the register to be read for it holds none
  have hkept : (marked inst).registers.readDown ((marked inst).bank .current) inst 5 = 1 := by
    rw [RegisterFile.readDown, if_pos ⟨hmeet, le_rfl⟩]
    exact RegisterFile.get_set_self _ _ _ _
  have hread : (marked inst).reg (inst.readReg 5) = 0 := by
    have hslot := slot_destination_eq hmeet (show 3 + 5 = 8 from rfl)
    have hne : (inst.destination.reg 5).slot ≠ (inst.readReg 5).slot :=
      hslot ▸ (inst.slot_destination_ne (by omega) hlength).symm
    have hzero : ∀ bank r, RegisterFile.zero.get bank r = 0 := by
      intro bank r
      simp [RegisterFile.get, RegisterFile.zero]
    exact (RegisterFile.get_set_of_slot_ne _ _ (.inr hne)).trans (hzero _ _)
  have hsame := (hmoves.digit hnibbles 5 hlength).symm.trans (hmoves'.digit hnibbles 5 hlength)
  rw [hread, hkept] at hsame
  cases hsame

/-- **A move downwards in closed form.** Every register takes the digit that the move is about to
read for it, unless the runs have met: then it keeps its own from the sixth register on. So the
order of the single steps can be told from their outcome for those windows and for no others. -/
theorem execute_movm (word : UInt16) :
    let inst : Instruction := ⟨word, .movm⟩
    let w := inst.destination
    (∀ m : Machine, ∃ m', execute inst m = .ok () m' ∧
      m.Moves .current w (fun i ↦ if inst.source.first = inst.d.up 8 ∧ 5 ≤ i then m.reg (w.reg i)
        else m.reg (inst.source.first.down (UInt8.ofNat i))) m') ∧
    ((∀ m : Machine, m.registers.Nibbles → ∃ m', execute inst m = .ok () m' ∧
      m.Moves .current w (fun i ↦ m.reg (inst.source.first.down (UInt8.ofNat i))) m') ↔
        ¬(inst.source.first = inst.d.up 8 ∧ 5 ≤ inst.windowExtent.toNat)) := by
  intro inst w
  have hform : inst.form = .movm := rfl
  refine ⟨exists_moves_readDown hform, ?_, ?_⟩
  · rintro hatOnce ⟨hmeet, hfive⟩
    obtain ⟨m, hnibbles, hdiffers⟩ := exists_not_moves hform hmeet hfive
    obtain ⟨m', hexec, hmoves⟩ := hatOnce m hnibbles
    exact hdiffers m' hexec hmoves
  · intro hapart m _
    obtain ⟨m', hexec, hmoves⟩ := exists_moves_readDown hform m
    refine ⟨m', hexec, hmoves.congr ?_⟩
    intro i hi
    refine if_neg ?_
    rintro ⟨hmeet, hfive⟩
    exact hapart ⟨hmeet, hfive.trans (Nat.le_of_lt_succ hi)⟩

end Machine

end

/-! ## Moves inside of a window -/

/-! ### The order of the steps -/

namespace Window

variable {w : Window}

/-- From the top down, a register is filled after it has been read for the one above. -/
theorem pairwise_spares_shiftUp (hlength : w.length ≤ 32) :
    w.shiftUp.Pairwise Assignment.Spares := by
  rw [shiftUp, List.pairwise_append, List.pairwise_map, List.pairwise_reverse]
  refine ⟨List.pairwise_lt_range.imp_of_mem ?_, List.pairwise_singleton _ _, ?_⟩
  · intro i j hi hj hij
    have hj := List.mem_range.mp hj
    exact .register (slot_reg_ne hlength (by omega) (by omega)).symm
      (slot_reg_ne hlength (by omega) (by omega)).symm
  · intro step hstep last hlast
    obtain ⟨i, hi, rfl⟩ := List.mem_map.mp hstep
    have hi := List.mem_range.mp (List.mem_reverse.mp hi)
    obtain rfl := List.mem_singleton.mp hlast
    refine .immediate ?_ 0
    rw [← w.slot_reg_zero]
    exact (slot_reg_ne hlength i.succ_pos (by omega)).symm

/-- From the bottom up, a register is filled after it has been read for the one below. -/
theorem pairwise_spares_shiftDown (hlength : w.length ≤ 32) :
    w.shiftDown.Pairwise Assignment.Spares := by
  rw [shiftDown, List.pairwise_append, List.pairwise_map]
  refine ⟨List.pairwise_lt_range.imp_of_mem ?_, List.pairwise_singleton _ _, ?_⟩
  · intro i j hi hj hij
    have hj := List.mem_range.mp hj
    exact .register (slot_reg_ne hlength hij (by omega)) (slot_reg_ne hlength (by omega) (by omega))
  · intro step hstep last hlast
    obtain ⟨i, hi, rfl⟩ := List.mem_map.mp hstep
    have hi := List.mem_range.mp hi
    obtain rfl := List.mem_singleton.mp hlast
    exact .immediate (slot_reg_ne hlength hi (by omega)) 0

theorem pairwise_spares_clear (hlength : w.length ≤ 32) : w.clear.Pairwise Assignment.Spares := by
  rw [clear, registers, List.map_map, List.pairwise_map]
  refine List.pairwise_lt_range.imp_of_mem ?_
  intro i j _ hj hij
  exact .immediate (slot_reg_ne hlength hij (List.mem_range.mp hj)) 0

theorem pairwise_spares_self (hlength : w.length ≤ 32) :
    (w.zipWith w).Pairwise Assignment.Spares := by
  rw [zipWith, List.pairwise_map]
  refine List.pairwise_lt_range.imp_of_mem ?_
  intro i j _ hj hij
  have hne := slot_reg_ne hlength hij (List.mem_range.mp hj)
  exact .register hne hne

end Window

namespace Machine

variable {m m' m'' : Machine} {inst : Instruction} {w : Window} {dst src : BankRole}

/-! ### What shifts, clears and moves between banks leave -/

def shiftedUp (m : Machine) (w : Window) : ℕ → UInt8
  | 0 => 0
  | i + 1 => m.reg (w.reg i)

def shiftedDown (m : Machine) (w : Window) (i : ℕ) : UInt8 :=
  if i + 1 < w.length then m.reg (w.reg (i + 1)) else 0

def digitsIn (m : Machine) (role : BankRole) (w : Window) (i : ℕ) : UInt8 :=
  m.registers.get (m.bank role) (w.reg i)

theorem exists_moves_shiftedUp (hform : inst.form = .rshm) (m : Machine) :
    ∃ m', execute inst m = .ok () m' ∧
      m.Moves .current inst.destination (m.shiftedUp inst.destination) m' := by
  have hop : inst.operation = .assign .current .current inst.destination.shiftUp := by
    rw [Instruction.operation, hform]
  refine exists_moves_of_spares hop
    (Window.pairwise_spares_shiftUp inst.length_destination_le_bank) inst.target_shiftUp_subset
    ?_ ?_
  · intro i hi
    cases i with
    | zero =>
      have hslot := inst.destination.slot_reg_zero.symm
      exact ⟨_, List.mem_append_right _ List.mem_cons_self, hslot, rfl⟩
    | succ i =>
      have hi := List.mem_reverse.mpr (List.mem_range.mpr (Nat.lt_sub_of_add_lt hi))
      exact ⟨_, List.mem_append_left _ (List.mem_map_of_mem hi), rfl, rfl⟩
  · intro hnibbles i _
    cases i with
    | zero => exact UInt8.zero_le
    | succ i => exact hnibbles.get_le _ _

theorem exists_moves_shiftedDown (hform : inst.form = .lshm) (m : Machine) :
    ∃ m', execute inst m = .ok () m' ∧
      m.Moves .current inst.destination (m.shiftedDown inst.destination) m' := by
  have hop : inst.operation = .assign .current .current inst.destination.shiftDown := by
    rw [Instruction.operation, hform]
  refine exists_moves_of_spares hop
    (Window.pairwise_spares_shiftDown inst.length_destination_le_bank)
    inst.target_shiftDown_subset ?_ ?_
  · intro i hi
    rw [shiftedDown]
    split
    case isTrue habove =>
      have hi := List.mem_range.mpr (Nat.lt_sub_of_add_lt habove)
      exact ⟨_, List.mem_append_left _ (List.mem_map_of_mem hi), rfl, rfl⟩
    case isFalse htop =>
      have hi : i = inst.destination.length - 1 := by omega
      exact ⟨_, List.mem_append_right _ List.mem_cons_self, hi ▸ rfl, rfl⟩
  · intro hnibbles i _
    rw [shiftedDown]
    split
    case isTrue => exact hnibbles.get_le _ _
    case isFalse => exact UInt8.zero_le

theorem exists_moves_zero (hform : inst.form = .clrm) (m : Machine) :
    ∃ m', execute inst m = .ok () m' ∧ m.Moves .current inst.destination (fun _ ↦ 0) m' := by
  have hop : inst.operation = .assign .current .current inst.destination.clear := by
    rw [Instruction.operation, hform]
  refine exists_moves_of_spares hop
    (Window.pairwise_spares_clear inst.length_destination_le_bank) ?_ ?_ ?_
  · rw [Instruction.map_target_clear]
    exact List.Subset.refl _
  · intro i hi
    exact ⟨_, List.mem_map_of_mem (Instruction.reg_mem_registers hi), rfl, rfl⟩
  · exact fun _ _ _ ↦ UInt8.zero_le

/-- The moves between banks are one move; they differ in which bank is which. -/
theorem exists_moves_digitsIn
    (hop : inst.operation = .assign dst src (inst.destination.zipWith inst.destination))
    (m : Machine) : ∃ m', execute inst m = .ok () m' ∧
      m.Moves dst inst.destination (m.digitsIn src inst.destination) m' := by
  refine exists_moves_of_spares hop
    (Window.pairwise_spares_self inst.length_destination_le_bank) ?_ ?_ ?_
  · rw [Instruction.map_target_zipWith]
    exact List.Subset.refl _
  · intro i hi
    exact ⟨_, List.mem_map_of_mem (List.mem_range.mpr hi), rfl, rfl⟩
  · exact fun hnibbles i _ ↦ hnibbles.get_le _ _

theorem exists_moves_additional (hform : inst.form = .mvacm) (m : Machine) :
    ∃ m', execute inst m = .ok () m' ∧
      m.Moves .current inst.destination (m.digitsIn .additional inst.destination) m' :=
  exists_moves_digitsIn (by rw [Instruction.operation, hform]) m

theorem exists_moves_current (hform : inst.form = .mvcam) (m : Machine) :
    ∃ m', execute inst m = .ok () m' ∧
      m.Moves .additional inst.destination (m.digitsIn .current inst.destination) m' :=
  exists_moves_digitsIn (by rw [Instruction.operation, hform]) m

/-! ### Numbers -/

theorem toNat_reg_lt (h : m.registers.Nibbles) (w : Window) :
    ∀ d ∈ w.registers.map fun r ↦ (m.reg r).toNat, d < 16 :=
  List.forall_mem_map.mpr (holdsDigits_of_nibbles h w.registers)

namespace Moves

theorem number_eq {value : ℕ → UInt8} (h : m.Moves .current w value m')
    (hnibbles : m.registers.Nibbles) (base : ℕ) : m'.number base w.registers
      = Nat.ofDigits base ((List.range w.length).map fun i ↦ (value i).toNat) := by
  rw [number, h.bank, RegisterFile.number, Window.registers, List.map_map]
  refine congrArg _ (List.map_congr_left ?_)
  intro i hi
  exact congrArg UInt8.toNat (h.digit hnibbles i (List.mem_range.mp hi))

theorem number_shiftedUp (h : m.Moves .current w (m.shiftedUp w) m')
    (hnibbles : m.registers.Nibbles) :
    m'.number 16 w.registers = 16 * m.number 16 w.registers % 16 ^ w.length := by
  have hvalues : ((List.range w.length).map fun i ↦ (m.shiftedUp w i).toNat)
      = (0 :: w.registers.map fun r ↦ (m.reg r).toNat).take w.length := by
    rw [Window.registers, List.map_map]
    cases w.length with
    | zero => rfl
    | succ n =>
      rw [List.take_succ_cons, ← List.map_take, List.take_range, min_eq_left n.le_succ,
        List.range_succ_eq_map, List.map_cons, List.map_map]
      rfl
  calc m'.number 16 w.registers
      = Nat.ofDigits 16 ((0 :: w.registers.map fun r ↦ (m.reg r).toNat).take w.length) := by
        rw [h.number_eq hnibbles, hvalues]
    _ = Nat.ofDigits 16 (0 :: w.registers.map fun r ↦ (m.reg r).toNat) % 16 ^ w.length :=
        (Nat.ofDigits_mod_pow_eq_ofDigits_take _ (by decide) _
          (List.forall_mem_cons.mpr ⟨by decide, toNat_reg_lt hnibbles w⟩)).symm
    _ = 16 * m.number 16 w.registers % 16 ^ w.length := by
        rw [Nat.ofDigits_cons, zero_add]
        rfl

theorem number_shiftedDown (h : m.Moves .current w (m.shiftedDown w) m')
    (hnibbles : m.registers.Nibbles) (hpos : 0 < w.length) :
    m'.number 16 w.registers = m.number 16 w.registers / 16 := by
  have hvalues : ((List.range w.length).map fun i ↦ (m.shiftedDown w i).toNat)
      = (w.registers.map fun r ↦ (m.reg r).toNat).tail ++ [0] := by
    obtain ⟨n, hn⟩ := Nat.exists_eq_succ_of_ne_zero hpos.ne'
    have hbelow : ∀ i ∈ List.range n,
        (m.shiftedDown w i).toNat = (m.reg (w.reg (i + 1))).toNat := by
      intro i hi
      have hi := List.mem_range.mp hi
      rw [shiftedDown, if_pos (by omega)]
    have htop : m.shiftedDown w n = 0 := if_neg (by omega)
    calc (List.range w.length).map (fun i ↦ (m.shiftedDown w i).toNat)
        = (List.range n).map (fun i ↦ (m.reg (w.reg (i + 1))).toNat) ++ [0] := by
          rw [hn, List.range_succ, List.map_append, List.map_congr_left hbelow, List.map_singleton,
            htop, UInt8.toNat_zero]
      _ = (w.registers.map fun r ↦ (m.reg r).toNat).tail ++ [0] := by
          rw [Window.registers, List.map_map, hn, List.range_succ_eq_map, List.map_cons,
            List.tail_cons, List.map_map]
          rfl
  calc m'.number 16 w.registers
      = Nat.ofDigits 16 ((w.registers.map fun r ↦ (m.reg r).toNat).tail ++ [0]) := by
        rw [h.number_eq hnibbles, hvalues]
    _ = Nat.ofDigits 16 (w.registers.map fun r ↦ (m.reg r).toNat).tail :=
        Nat.ofDigits_append_zero _
    _ = m.number 16 w.registers / 16 :=
        (Nat.ofDigits_div_eq_ofDigits_tail (by decide) _ (toNat_reg_lt hnibbles w)).symm

/-! ### There and back -/

theorem reg_eq {value : ℕ → UInt8} (h : m.Moves .current w value m')
    (hnibbles : m.registers.Nibbles) {i : ℕ} (hi : i < w.length) : m'.reg (w.reg i) = value i := by
  rw [reg, h.bank, h.digit hnibbles i hi]

/-- Shifting back restores all digits but the top one, which has been shifted out. -/
theorem restores (h : m.Moves .current w (m.shiftedUp w) m')
    (h' : m'.Moves .current w (m'.shiftedDown w) m'') (hnibbles : m.registers.Nibbles)
    (hpos : 0 < w.length) :
    m.registers.AgreeOff [(m.bank .current).cell w.top] m''.registers ∧ m''.reg w.top = 0 := by
  have hnibbles' := h.nibbles hnibbles
  constructor
  · intro c hc
    by_cases hmem : c ∈ w.registers.map (m.bank .current).cell
    · obtain ⟨i, hi, rfl⟩ := Window.mem_map_cell_registers.mp hmem
      have habove : i + 1 < w.length := by
        refine lt_of_le_of_ne hi ?_
        intro hlast
        exact hc (List.mem_singleton.mpr (by rw [Window.top, ← hlast, Nat.add_sub_cancel]))
      calc m''.registers.peek ((m.bank .current).cell (w.reg i))
          = m''.reg (w.reg i) := by rw [reg, h'.bank, h.bank, RegisterFile.get_eq_peek]
        _ = m'.shiftedDown w i := h'.reg_eq hnibbles' hi
        _ = m'.reg (w.reg (i + 1)) := if_pos habove
        _ = m.reg (w.reg i) := h.reg_eq hnibbles habove
    · have hothers := h'.others c
      rw [h.bank] at hothers
      exact (hothers hmem).trans (h.others c hmem)
  · have htop : m'.shiftedDown w (w.length - 1) = 0 := if_neg (by omega)
    exact (h'.reg_eq hnibbles' (Nat.sub_lt hpos Nat.one_pos)).trans htop

theorem registers_eq (h : m.Moves dst w (m.digitsIn src w) m') (hnibbles : m.registers.Nibbles)
    (hbanks : (m.bank dst).slot = (m.bank src).slot) : m'.registers = m.registers := by
  refine RegisterFile.eq_of_peek ?_
  intro c
  by_cases hmem : c ∈ w.registers.map (m.bank dst).cell
  · obtain ⟨i, hi, rfl⟩ := Window.mem_map_cell_registers.mp hmem
    exact (h.digit hnibbles i hi).trans (m.registers.get_congr hbanks.symm rfl)
  · exact h.others c hmem

/-- A copy that is taken back leaves the current bank as it was. -/
theorem reg_taken_back (h : m.Moves .additional w (m.digitsIn .current w) m')
    (h' : m'.Moves .current w (m'.digitsIn .additional w) m'') (hnibbles : m.registers.Nibbles)
    (r : Reg) : m''.reg r = m.reg r := by
  by_cases hmem : ∃ i < w.length, (w.reg i).slot = r.slot
  · obtain ⟨i, hi, hslot⟩ := hmem
    calc m''.reg r
        = m''.reg (w.reg i) := m''.registers.get_congr rfl hslot.symm
      _ = m'.registers.get (m'.bank .additional) (w.reg i) := h'.reg_eq (h.nibbles hnibbles) hi
      _ = m.reg (w.reg i) := by rw [h.bank, h.digit hnibbles i hi, digitsIn, reg]
      _ = m.reg r := m.registers.get_congr rfl hslot
  · have hne : ∀ i < w.length, (w.reg i).slot ≠ r.slot := by
      intro i hi hslot
      exact hmem ⟨i, hi, hslot⟩
    rw [reg, h'.bank, h'.get_of_ne (.inr hne), h.get_of_ne (.inr hne), h.bank, reg]

end Moves

/-! ### The five instructions -/

/-- **Windows are moved at once**, whatever the machine holds and wherever its windows turn round.
A shift up multiplies by sixteen in as many digits as the window has, and a shift down divides by
sixteen; one after the other they lose the top digit only. Moves between banks copy the window, if
there is another bank to copy it to, and copying back leaves the current bank as it was. -/
theorem execute_in_place (m : Machine) (inst : Instruction) :
    let w := inst.destination
    (inst.form = .rshm → ∃ m', execute inst m = .ok () m' ∧ m.Moves .current w (m.shiftedUp w) m' ∧
      (m.registers.Nibbles →
        m'.number 16 w.registers = 16 * m.number 16 w.registers % 16 ^ w.length) ∧
      ∀ back : Instruction, back.form = .lshm → back.destination = w →
        ∃ m'', execute back m' = .ok () m'' ∧ (m.registers.Nibbles →
          m.registers.AgreeOff [(m.bank .current).cell w.top] m''.registers ∧
            m''.reg w.top = 0)) ∧
    (inst.form = .lshm → ∃ m', execute inst m = .ok () m' ∧
      m.Moves .current w (m.shiftedDown w) m' ∧
      (m.registers.Nibbles → m'.number 16 w.registers = m.number 16 w.registers / 16)) ∧
    (inst.form = .clrm → ∃ m', execute inst m = .ok () m' ∧ m.Moves .current w (fun _ ↦ 0) m') ∧
    (inst.form = .mvacm → ∃ m', execute inst m = .ok () m' ∧
      m.Moves .current w (m.digitsIn .additional w) m' ∧
      (m.registers.Nibbles → (m.bank .current).slot = (m.bank .additional).slot →
        m'.registers = m.registers)) ∧
    (inst.form = .mvcam → ∃ m', execute inst m = .ok () m' ∧
      m.Moves .additional w (m.digitsIn .current w) m' ∧
      (m.registers.Nibbles → (m.bank .current).slot = (m.bank .additional).slot →
        m'.registers = m.registers) ∧
      ∀ back : Instruction, back.form = .mvacm → back.destination = w →
        ∃ m'', execute back m' = .ok () m'' ∧
          (m.registers.Nibbles → ∀ r, m''.reg r = m.reg r)) := by
  intro w
  have hpos : 0 < w.length := Nat.succ_pos _
  refine ⟨?_, ?_, exists_moves_zero (m := m), ?_, ?_⟩
  · intro hform
    obtain ⟨m', hexec, hmoves⟩ := exists_moves_shiftedUp hform m
    refine ⟨m', hexec, hmoves, hmoves.number_shiftedUp, ?_⟩
    intro back hback hwindow
    obtain ⟨m'', hexec', hmoves'⟩ := exists_moves_shiftedDown hback m'
    rw [hwindow] at hmoves'
    exact ⟨m'', hexec', fun hnibbles ↦ hmoves.restores hmoves' hnibbles hpos⟩
  · intro hform
    obtain ⟨m', hexec, hmoves⟩ := exists_moves_shiftedDown hform m
    exact ⟨m', hexec, hmoves, fun hnibbles ↦ hmoves.number_shiftedDown hnibbles hpos⟩
  · intro hform
    obtain ⟨m', hexec, hmoves⟩ := exists_moves_additional hform m
    exact ⟨m', hexec, hmoves, hmoves.registers_eq⟩
  · intro hform
    obtain ⟨m', hexec, hmoves⟩ := exists_moves_current hform m
    refine ⟨m', hexec, hmoves, fun hnibbles hbanks ↦ hmoves.registers_eq hnibbles hbanks.symm, ?_⟩
    intro back hback hwindow
    obtain ⟨m'', hexec', hmoves'⟩ := exists_moves_additional hback m'
    rw [hwindow] at hmoves'
    exact ⟨m'', hexec', hmoves.reg_taken_back hmoves'⟩

/-- A machine with `321` in the window that begins at `R30` and turns round behind the last
register. Both of its banks are the first one. -/
private def threeDigits : Machine where
  registers := ((RegisterFile.zero.set ⟨0⟩ ⟨30⟩ 1).set ⟨0⟩ ⟨31⟩ 2).set ⟨0⟩ ⟨0⟩ 3
  memory := ⟨"memory", []⟩
  ports := ⟨"io", []⟩

theorem execute_in_place_turning :
    let up : Instruction := ⟨0x63C8, .rshm⟩
    let down : Instruction := ⟨0x67C8, .lshm⟩
    let clear : Instruction := ⟨0x6BC8, .clrm⟩
    let fetch : Instruction := ⟨0x73C8, .mvacm⟩
    let save : Instruction := ⟨0x7BC8, .mvcam⟩
    threeDigits.registers.Nibbles ∧
      (∃ m' m'', execute up threeDigits = .ok () m' ∧
        m'.number 16 up.destination.registers = 0x210 ∧
        execute down m' = .ok () m'' ∧ m''.reg ⟨0⟩ = 0 ∧
        threeDigits.registers.AgreeOff [Bank.cell ⟨0⟩ ⟨0⟩] m''.registers) ∧
      (∃ m', execute down threeDigits = .ok () m' ∧
        m'.number 16 down.destination.registers = 0x32) ∧
      (∃ m', execute clear threeDigits = .ok () m' ∧
        threeDigits.Moves .current clear.destination (fun _ ↦ 0) m') ∧
      (∃ m', execute fetch threeDigits = .ok () m' ∧ m'.registers = threeDigits.registers) ∧
      ∃ m' m'', execute save threeDigits = .ok () m' ∧ m'.registers = threeDigits.registers ∧
        execute fetch m' = .ok () m'' ∧ ∀ r, m''.reg r = threeDigits.reg r := by
  intro up down clear fetch save
  have hdown : down.destination = up.destination := by decide
  have htop : up.destination.top = ⟨0⟩ := by decide
  have hfetch : fetch.destination = save.destination := by decide
  have hnibbles : threeDigits.registers.Nibbles :=
    ((RegisterFile.nibbles_zero.set ⟨0⟩ ⟨30⟩ 1).set ⟨0⟩ ⟨31⟩ 2).set ⟨0⟩ ⟨0⟩ 3
  have hnumber : threeDigits.number 16 up.destination.registers = 0x321 := by decide
  refine ⟨hnibbles, ?_, ?_, ?_, ?_, ?_⟩
  · obtain ⟨m', hexec, -, hup, hback⟩ := (execute_in_place threeDigits up).1 rfl
    obtain ⟨m'', hexec', hrestored⟩ := hback down rfl hdown
    have hleft := hup hnibbles
    have hagree := hrestored hnibbles
    rw [hnumber] at hleft
    rw [htop] at hagree
    exact ⟨m', m'', hexec, hleft.trans (by decide), hexec', hagree.2, hagree.1⟩
  · obtain ⟨m', hexec, -, hhalved⟩ := (execute_in_place threeDigits down).2.1 rfl
    have hleft := hhalved hnibbles
    rw [hdown, hnumber] at hleft
    exact ⟨m', hexec, by rw [hdown, hleft]⟩
  · exact (execute_in_place threeDigits clear).2.2.1 rfl
  · obtain ⟨m', hexec, -, hsame⟩ := (execute_in_place threeDigits fetch).2.2.2.1 rfl
    exact ⟨m', hexec, hsame hnibbles rfl⟩
  · obtain ⟨m', hexec, -, hsame, hback⟩ := (execute_in_place threeDigits save).2.2.2.2 rfl
    obtain ⟨m'', hexec', hkept⟩ := hback fetch rfl hfetch
    exact ⟨m', m'', hexec, hsame hnibbles rfl, hexec', hkept hnibbles⟩

end Machine

end CalcWatch
