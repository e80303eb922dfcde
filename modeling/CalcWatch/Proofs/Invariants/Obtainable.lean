import CalcWatch.Proofs.Interrupts.Controller
import CalcWatch.Proofs.Json.Stored
import CalcWatch.Proofs.Registers.Names
import CalcWatch.Proofs.Runs.Stimuli
import CalcWatch.Runner.Session
import Mathlib.Algebra.Group.Nat.Defs

/-!
# The machines there are

A host builds a machine, from a layout or around buses of its own, and from then on it goes through
the operations of the machine and of its buses. Whatever it does, and whatever the program does, the
machine stays in order; only registers that were read from a text can be out of order.

## Machines in order

The parts of a machine are in order each for itself, and what is done to one part leaves the others
alone. So a computation keeps a machine in order as soon as it is made of accesses to the buses, of
stores into the register file, and of changes to the control registers that do not concern the
banks. The one operation that chooses a bank takes it from two bits of its word.

## Whatever a host does

The machines that a host can come by are `Obtainable`, with one rule for each of its operations, and
by induction on these rules they are in order, faults or not. That is what the rest of the watch
relies on without asking: positions in the register file and in devices are never out of bounds, and
the summary, which leaves out a cell that holds no digit, never has one to leave out.

## Registers that were stored

The number of a bank, the number of a register and the value of a cell are stored as bare numbers,
and they are read as they stand in the text: nothing brings them into range. So a machine that is
given registers from a text is in order exactly if the numbers in the text are in range. If they
are, every instruction finds its registers and leaves the machine in order; if the number of a bank
is not, there are no such cells in the file.
-/

namespace CalcWatch

/-! ## Machines in order -/

section

open Faulting (Keeps)

/-! ### The parts -/

/-- Both banks exist. -/
structure Control.Sound (control : Control) : Prop where
  currentBank : control.currentBank.InRange
  additionalBank : control.additionalBank.InRange

namespace Machine

/-- The parts of the machine are in order. -/
structure Sound (m : Machine) : Prop where
  registers : m.registers.Nibbles
  control : m.control.Sound
  interrupts : m.interrupts.Sound
  memory : m.memory.Built
  ports : m.ports.Built

variable {α : Type} {m : Machine}

theorem Sound.inRange_bank (h : m.Sound) (role : BankRole) : (m.bank role).InRange := by
  cases role with
  | current => exact h.control.currentBank
  | additional => exact h.control.additionalBank

/-! ### Registers and control registers -/

theorem Sound.with_registers (h : m.Sound) {registers : RegisterFile}
    (hregisters : registers.Nibbles) : Sound { m with registers } :=
  { h with registers := hregisters }

/-- No other control register matters. -/
theorem Sound.of_banks_eq (h : m.Sound) {control : Control}
    (hcurrent : control.currentBank = m.control.currentBank)
    (hadditional : control.additionalBank = m.control.additionalBank) : Sound { m with control } :=
  { h with control := ⟨hcurrent ▸ h.control.currentBank, hadditional ▸ h.control.additionalBank⟩ }

theorem Sound.setBank (h : m.Sound) {bank : Bank} (hbank : bank.InRange) (role : BankRole) :
    (m.setBank role bank).Sound := by
  cases role with
  | current => exact { h with control := ⟨hbank, h.control.additionalBank⟩ }
  | additional => exact { h with control := ⟨h.control.currentBank, hbank⟩ }

theorem Sound.advance (h : m.Sound) (bytes : ℕ) : (m.advance bytes).Sound := h.of_banks_eq rfl rfl

theorem Sound.complete (h : m.Sound) (completion : Completion) : (m.complete completion).Sound := by
  rw [Machine.complete, FlagUpdate.apply_eq]
  exact h.of_banks_eq rfl rfl

theorem Sound.fillWindow (h : m.Sound) (w : Window) (digits : List UInt8) :
    (m.fillWindow w digits).Sound := by
  rw [Machine.fillWindow]
  refine List.foldlRecOn _ _ h fun m hm cell _ ↦ hm.with_registers ?_
  exact hm.registers.set _ _ _

theorem keeps_compute {change : Machine → RegisterFile × FlagUpdate}
    (hchange : ∀ m, m.Sound → (change m).1.Nibbles) : Keeps Sound (compute change) :=
  fun _ h ↦ h.with_registers (hchange _ h)

theorem keeps_proceed (flags : FlagUpdate) : Keeps Sound (proceed flags) := Faulting.keeps_view _

/-! ### Accesses to the buses -/

theorem keeps_onMemory {use : Faulting Bus α} (huse : Keeps Bus.Built use) :
    Keeps Sound (onMemory use) := by
  intro m h
  have hmemory := huse m.memory h.memory
  rw [onMemory_apply]
  cases hu : use m.memory <;> rw [hu] at hmemory <;> exact { h with memory := hmemory }

theorem keeps_onPorts {use : Faulting Bus α} (huse : Keeps Bus.Built use) :
    Keeps Sound (onPorts use) := by
  intro m h
  have hports := huse m.ports h.ports
  rw [onPorts_apply]
  cases hu : use m.ports <;> rw [hu] at hports <;> exact { h with ports := hports }

/-! ### Operations -/

theorem keeps_push (word : UInt16) : Keeps Sound (push word) := by
  refine (Faulting.keeps_view _).bind fun sp ↦ (Faulting.keeps_update fun m h ↦ ?_).bind fun _ ↦ ?_
  · exact h.of_banks_eq rfl rfl
  · exact keeps_onMemory (Bus.keeps_writeAll _)

theorem keeps_pop : Keeps Sound pop := by
  refine (Faulting.keeps_ask _).bind fun word ↦ (Faulting.keeps_update fun m h ↦ ?_).bind fun _ ↦ ?_
  · exact h.of_banks_eq rfl rfl
  · exact Faulting.keeps_pure word

theorem keeps_stream (count : ℕ) : Keeps Sound (stream count) := by
  induction count with
  | zero => exact Faulting.keeps_pure ()
  | succ count ih =>
    refine (Faulting.keeps_ask _).bind fun byte ↦
      (keeps_onPorts (Bus.keeps_write dataPort byte)).bind fun _ ↦ ?_
    exact (Faulting.keeps_update fun m h ↦ h.advance 1).bind fun _ ↦ ih

theorem keeps_call (target resume : UInt16) : Keeps Sound (call target resume) := by
  rw [call]
  split
  · exact (keeps_stream _).bind fun _ ↦ Faulting.keeps_pure _
  · refine (Faulting.keeps_update fun m h ↦ ?_).bind fun _ ↦ Faulting.keeps_pure _
    exact h.with_registers (h.registers.clearBank _)
  · exact (keeps_push resume).bind fun _ ↦ Faulting.keeps_pure _

theorem keeps_ret : Keeps Sound ret := keeps_pop.bind fun _ ↦ Faulting.keeps_pure _

theorem keeps_halt : Keeps Sound halt := by
  refine Keeps.bind (x := leaveService) (fun m h ↦ { h with }) fun servicing ↦ ?_
  cases servicing with
  | true => exact keeps_ret
  | false => exact keeps_proceed .keep

theorem keeps_advancePast (w : Window) (advance : Bool) : Keeps Sound (advancePast w advance) := by
  refine Faulting.keeps_update fun m h ↦ ?_
  cases advance with
  | true => exact h.advance _
  | false => exact h

theorem keeps_perform {op : Operation} (hbanks : ∀ bank ∈ op.banks, bank.InRange) :
    Keeps Sound (perform op) := by
  cases op with
  | idle => exact keeps_proceed .keep
  | combine op step =>
    rw [perform]
    exact keeps_compute fun m h ↦ h.registers.set _ _ _
  | ripple op carry steps =>
    rw [perform]
    exact keeps_compute fun m h ↦ h.registers.ripple _ _ _ _
  | compare r operand =>
    rw [perform]
    exact keeps_compute fun m h ↦ h.registers
  | comparePairs pairs =>
    rw [perform]
    exact keeps_compute fun m h ↦ h.registers
  | bitwise op r value =>
    rw [perform]
    exact keeps_compute fun m h ↦ h.registers.set _ _ _
  | assign dst src steps =>
    rw [perform]
    exact keeps_compute fun m h ↦ h.registers.assign _ _ _
  | selectBank role bank =>
    have hbank := hbanks bank List.mem_cons_self
    exact (Faulting.keeps_update fun m h ↦ h.setBank hbank role).bind fun _ ↦ keeps_proceed .keep
  | branch | branchBy | jump | jumpIf => exact Faulting.keeps_view _
  | call target => exact (Faulting.keeps_view _).bind fun resume ↦ keeps_call target resume
  | ret => exact keeps_ret
  | halt => exact keeps_halt
  | store w advance =>
    refine ((Faulting.keeps_view _).bind fun stores ↦ ?_).bind fun _ ↦ keeps_proceed .keep
    exact (keeps_onMemory (Bus.keeps_writeAll stores)).bind fun _ ↦ keeps_advancePast w advance
  | load w advance =>
    refine ((Faulting.keeps_ask _).bind fun bytes ↦ ?_).bind fun _ ↦ keeps_proceed .keep
    exact (Faulting.keeps_update fun m h ↦ h.fillWindow w _).bind fun _ ↦
      keeps_advancePast w advance
  | send payload =>
    refine ((Faulting.keeps_view _).bind fun bytes ↦ ?_).bind fun _ ↦ keeps_proceed .keep
    exact keeps_onPorts (Bus.keeps_writeAll _)
  | pointMemory a =>
    refine (Faulting.keeps_update fun m h ↦ ?_).bind fun _ ↦ keeps_proceed .keep
    exact h.of_banks_eq rfl rfl
  | pointDisplay a =>
    refine ((Faulting.keeps_update fun m h ↦ ?_).bind fun _ ↦ ?_).bind fun _ ↦ keeps_proceed .keep
    · exact h.of_banks_eq rfl rfl
    · exact keeps_onPorts (Bus.keeps_write _ _)
  | receive high low =>
    refine ((Faulting.keeps_ask _).bind fun byte ↦ ?_).bind fun _ ↦ keeps_proceed .keep
    refine Faulting.keeps_update fun m h ↦ h.with_registers ?_
    exact (h.registers.set _ _ _).set _ _ _

/-! ### Steps and runs -/

theorem keeps_enterService (source : InterruptSource) : Keeps Sound (enterService source) := by
  refine (Faulting.keeps_update fun m h ↦ ?_).bind fun _ ↦ (Faulting.keeps_view _).bind fun resume ↦
    (keeps_call _ resume).bind fun completion ↦
      Faulting.keeps_update fun m h ↦ h.complete completion
  exact { h with interrupts := h.interrupts.enter source }

theorem keeps_execute (inst : Instruction) : Keeps Sound (execute inst) :=
  (keeps_perform inst.inRange_banks).bind fun completion ↦
    Faulting.keeps_update fun _ h ↦ h.complete completion

theorem keeps_step : Keeps Sound step := by
  refine (Faulting.keeps_view _).bind fun next ↦ ?_
  have hexecute : Keeps Sound executeNext := (Faulting.keeps_ask _).bind keeps_execute
  cases next with
  | some source => exact (keeps_enterService source).bind fun _ ↦ Faulting.keeps_pure _
  | none => exact hexecute.bind fun _ ↦ Faulting.keeps_pure _

theorem Sound.runFrom (h : m.Sound) (taken more : ℕ) : (runFrom taken more m).2.Sound := by
  induction more generalizing taken m with
  | zero => exact h
  | succ more ih =>
    have hstep := keeps_step m h
    rw [Machine.runFrom]
    cases hm : step m with
    | ok length m' =>
      rw [hm] at hstep
      exact ih hstep (taken + 1)
    | error f m' =>
      rw [hm] at hstep
      exact hstep

end Machine

end

/-! ## Whatever a host does -/

section

open Faulting (finalState)

/-! ### What a host can do -/

/-- One operation of a host leads from `bus` to another bus. Reading leads nowhere. -/
inductive Bus.HostStep (bus : Bus) : Bus → Prop where
  | attach {device : Device} (h : device.Built) : HostStep bus (bus.attach device)
  | detach (i : ℕ) : HostStep bus (bus.detach i).2
  | clear : HostStep bus bus.clear
  | load (base : UInt32) (bytes : List UInt8) : HostStep bus (finalState (load base bytes bus))
  | write (a : UInt32) (value : UInt8) : HostStep bus (finalState (write a value bus))
  | writeWide (width : Width) (a : UInt32) (value : ℕ) :
    HostStep bus (finalState (writeWide width a value bus))

theorem Bus.HostStep.built {bus bus' : Bus} (h : bus.HostStep bus') (hbus : bus.Built) :
    bus'.Built := by
  cases h with
  | attach hdevice => exact hbus.attach hdevice
  | detach i => exact hbus.detach i
  | clear => exact bus.built_clear
  | load base bytes => exact keeps_load base bytes bus hbus
  | write a value => exact keeps_write a value bus hbus
  | writeWide width a value => exact keeps_writeWide width a value bus hbus

namespace Machine

/-- A machine that a host can come by. -/
inductive Obtainable : Machine → Prop where
  /-- The host describes the machine. -/
  | ofLayout (layout : MachineLayout) : Obtainable (.ofLayout layout)
  /-- The host brings its own devices. -/
  | ofBuses {memory ports : Bus} (hmemory : memory.Built) (hports : ports.Built) :
    Obtainable { memory, ports }
  | loadImage {m : Machine} (h : Obtainable m) (base : UInt16) (image : List UInt8) :
    Obtainable (finalState (loadImage base image m))
  | step {m : Machine} (h : Obtainable m) : Obtainable m.stepped
  | run {m : Machine} (h : Obtainable m) (limit : ℕ) : Obtainable (run limit m).2
  | raise {m : Machine} (h : Obtainable m) (source : InterruptSource) : Obtainable (m.raise source)
  | reset {m : Machine} (h : Obtainable m) : Obtainable m.reset
  | setRegisterValue {m : Machine} (h : Obtainable m) (name : String) (value : Int32) :
    Obtainable (finalState (setRegisterValue name value m))
  | setReg {m : Machine} (h : Obtainable m) (r value : UInt8) :
    Obtainable (m.setReg (.ofByte r) value)
  | setCell {m : Machine} (h : Obtainable m) (bank r value : UInt8) :
    Obtainable { m with registers := m.registers.set (.ofByte bank) (.ofByte r) value }
  | clearBank {m : Machine} (h : Obtainable m) (bank : UInt8) :
    Obtainable { m with registers := m.registers.clearBank (.ofByte bank) }
  /-- The host overwrites control registers. A bank that it replaces comes from a byte. -/
  | control {m : Machine} (h : Obtainable m) {control : Control}
    (hcurrent : control.currentBank = m.control.currentBank ∨ ∃ b, control.currentBank = .ofByte b)
    (hadditional :
      control.additionalBank = m.control.additionalBank ∨ ∃ b, control.additionalBank = .ofByte b) :
    Obtainable { m with control }
  | memory {m : Machine} (h : Obtainable m) {bus : Bus} (hbus : m.memory.HostStep bus) :
    Obtainable { m with memory := bus }
  | ports {m : Machine} (h : Obtainable m) {bus : Bus} (hbus : m.ports.HostStep bus) :
    Obtainable { m with ports := bus }

variable {m : Machine}

theorem Sound.reset {m : Machine} (hmemory : m.memory.Built) (hports : m.ports.Built) :
    m.reset.Sound where
  registers := RegisterFile.nibbles_zero
  control := ⟨Bank.inRange_ofByte 0, Bank.inRange_ofByte 0⟩
  interrupts := InterruptController.sound_default
  memory := hmemory
  ports := hports

theorem Sound.writeRegister (h : m.Sound) (name : RegisterName) (value : UInt16) :
    (m.writeRegister name value).Sound := by
  cases name with
  | cell bank r => exact h.with_registers (h.registers.set bank r _)
  | currentBank => exact h.setBank (Bank.inRange_ofByte _) .current
  | additionalBank => exact h.setBank (Bank.inRange_ofByte _) .additional
  | pc | flags | sa | sp => exact h.of_banks_eq rfl rfl

theorem keeps_setRegisterValue (name : String) (value : Int32) :
    Faulting.Keeps Sound (setRegisterValue name value) := by
  refine (Faulting.keeps_ask _).bind fun register ↦ ?_
  split
  · exact Faulting.keeps_update fun m h ↦ h.writeRegister register _
  · exact Faulting.keeps_throw _

/-- Every operation keeps the machine in order. -/
theorem Obtainable.sound (h : m.Obtainable) : m.Sound := by
  induction h with
  | ofLayout layout => exact .reset (Bus.built_build _ _) (Bus.built_build _ _)
  | ofBuses hmemory hports => exact .reset (m := { memory := _, ports := _ }) hmemory hports
  | loadImage _ base image ih => exact keeps_onMemory (Bus.keeps_load _ image) _ ih
  | step _ ih => exact keeps_step _ ih
  | run _ limit ih => exact ih.runFrom 0 limit
  | raise _ source ih => exact { ih with interrupts := ih.interrupts.raise source }
  | reset _ ih => exact .reset ih.memory ih.ports
  | setRegisterValue _ name value ih => exact keeps_setRegisterValue name value _ ih
  | setReg _ r value ih => exact ih.with_registers (ih.registers.set _ _ value)
  | setCell _ bank r value ih => exact ih.with_registers (ih.registers.set _ _ value)
  | clearBank _ bank ih => exact ih.with_registers (ih.registers.clearBank _)
  | control _ hcurrent hadditional ih =>
    refine { ih with control := ⟨?_, ?_⟩ }
    · rcases hcurrent with hcurrent | ⟨b, hcurrent⟩
      · exact hcurrent ▸ ih.control.currentBank
      · exact hcurrent ▸ Bank.inRange_ofByte b
    · rcases hadditional with hadditional | ⟨b, hadditional⟩
      · exact hadditional ▸ ih.control.additionalBank
      · exact hadditional ▸ Bank.inRange_ofByte b
  | memory _ hbus ih => exact { ih with memory := hbus.built ih.memory }
  | ports _ hbus ih => exact { ih with ports := hbus.built ih.ports }

/-! ### What can be relied on -/

/-- The digits of the current bank, one for each cell in the order of the registers. -/
def bankDigits (m : Machine) : List Char :=
  (m.registers.cells (m.bank .current)).map fun cell ↦ Text.upperDigit cell.toNat

theorem length_bankDigits (m : Machine) : m.bankDigits.length = 32 := by
  rw [bankDigits, List.length_map, RegisterFile.cells, Vector.length_toList]

/-- A bank of nibbles is shown in full. -/
theorem Sound.bankLine_eq (h : m.Sound) :
    m.bankLine = "bank " ++ String.singleton (m.bank .current).letter ++ ": "
      ++ String.ofList m.bankDigits := by
  have hcells : ∀ cell ∈ m.registers.cells (m.bank .current),
      cellChar? cell = some (Text.upperDigit cell.toNat) := by
    intro cell hcell
    have hlt : cell < 16 :=
      UInt8.lt_of_le_of_lt (h.registers.le_of_mem_cells hcell) (by decide : (15 : UInt8) < 16)
    rw [cellChar?, if_pos hlt]
  rw [bankLine, List.filterMap_congr hcells, List.filterMap_eq_map', bankDigits]

theorem Sound.digitValue?_bankDigits (h : m.Sound) (i : Fin 32) :
    m.bankDigits[i]?.bind Text.digitValue?
      = some (m.registers.peek ((m.bank .current).slot, i)).toNat := by
  have hcell := UInt8.le_iff_toNat_le.mp (h.registers ((m.bank .current).slot, i))
  have hget : m.bankDigits[i]?
      = some (Text.upperDigit (m.registers.peek ((m.bank .current).slot, i)).toNat) := by
    simp [bankDigits, RegisterFile.cells, RegisterFile.peek]
  rw [hget, Option.bind_some, Text.digitValue?_upperDigit (Nat.lt_succ_of_le hcell)]

/-- A machine that can be relied on. -/
structure InOrder (m : Machine) : Prop where
  /-- Every cell holds a nibble. -/
  cells : ∀ c, m.registers.peek c ≤ 15
  /-- The current bank is one of the four. -/
  currentBank : m.control.currentBank.number ≤ 3
  /-- The additional bank is one of the four. -/
  additionalBank : m.control.additionalBank.number ≤ 3
  /-- The number of a bank in use and the number of a register lead to a cell. -/
  index : ∀ role (r : Reg), r.number ≤ 31 →
    (m.registers.banks[(m.bank role).number.toNat]?.bind fun cells ↦ cells[r.number.toNat]?)
      = some (m.registers.get (m.bank role) r)
  /-- Every pending bit is the bit of a source. -/
  pending : ∀ i, m.interrupts.pending.toNat.testBit i = true →
    ∃ source : InterruptSource, source.bit.toNat = 2 ^ i
  /-- Every device is one of those there are, and is in order. -/
  devices : ∀ device ∈ m.memory.devices ++ m.ports.devices, device.Built ∧ device.InOrder
  /-- The third line of the summary shows the current bank. -/
  summary : ∀ steps, (m.summary steps)[2]? =
    some ("bank " ++ String.singleton (m.bank .current).letter ++ ": "
      ++ String.ofList m.bankDigits)
  /-- It shows every cell of the bank. -/
  length_digits : m.bankDigits.length = 32
  /-- It shows every cell in its place, as a hexadecimal digit. -/
  digits : ∀ i : Fin 32, m.bankDigits[i]?.bind Text.digitValue?
    = some (m.registers.peek ((m.bank .current).slot, i)).toNat

theorem Sound.inOrder (h : m.Sound) : m.InOrder where
  cells := h.registers
  currentBank := h.control.currentBank
  additionalBank := h.control.additionalBank
  index role _ hr := m.registers.getElem?_banks (h.inRange_bank role) hr
  pending _ hi := h.interrupts.exists_source hi
  devices device hdevice := by
    have hbuilt : device.Built :=
      (List.mem_append.mp hdevice).elim (h.memory device) (h.ports device)
    exact ⟨hbuilt, hbuilt.inOrder⟩
  summary _ := congrArg some h.bankLine_eq
  length_digits := m.length_bankDigits
  digits := h.digitValue?_bankDigits

/-- **Every machine that a host can come by is in order**, and the cells that its instructions and
its host name are cells that exist. -/
theorem inOrder_of_obtainable (h : m.Obtainable) :
    m.InOrder ∧
      (∀ inst : Instruction, (∀ r ∈ inst.operation.registers, r.number ≤ 31) ∧
        ∀ bank ∈ inst.operation.banks, bank.number ≤ 3) ∧
      (∀ name bank r, RegisterName.parse name = .ok (.cell bank r) →
        bank.number ≤ 3 ∧ r.number ≤ 31) ∧
      ∀ b, (Bank.ofByte b).number ≤ 3 ∧ (Reg.ofByte b).number ≤ 31 :=
  ⟨h.sound.inOrder, fun inst ↦ ⟨inst.inRange_registers, inst.inRange_banks⟩,
    fun _ _ _ ↦ RegisterName.inRange_of_parse,
    fun b ↦ ⟨Bank.inRange_ofByte b, Reg.inRange_ofByte b⟩⟩

theorem inOrder_of_stock : Obtainable ((stockMachine.raise .setButton).stepped) ∧
    InOrder ((stockMachine.raise .setButton).stepped) := by
  have h : Obtainable ((stockMachine.raise .setButton).stepped) :=
    ((Obtainable.ofLayout {}).raise .setButton).step
  exact ⟨h, (inOrder_of_obtainable h).1⟩

end Machine

end

/-! ## Registers that were stored -/

section

open Faulting (finalState)
open Json (natural fields?)
open JsonForm (encode read?)

theorem RegisterFile.getElem?_banks_eq_none (file : RegisterFile) {bank : Bank}
    (h : ¬bank.InRange) : file.banks[bank.number.toNat]? = none := by
  have hnumber : 3 < bank.number.toNat :=
    UInt8.lt_iff_toNat_lt.mp (UInt8.not_le.mp h)
  exact Vector.getElem?_eq_none hnumber

namespace Machine

variable {m : Machine}

/-- The machine with the registers of another one. -/
def restore (m : Machine) (registers : RegisterFile) (control : Control) : Machine :=
  { m with registers, control }

/-- There is a cell for every register that the instruction names, in either bank, and the cell
holds a nibble. -/
def Finds (m : Machine) (inst : Instruction) : Prop :=
  ∀ role, ∀ r ∈ inst.operation.registers,
    (m.registers.banks[(m.bank role).number.toNat]?.bind fun cells ↦ cells[r.number.toNat]?)
        = some (m.registers.get (m.bank role) r) ∧
      m.registers.get (m.bank role) r ≤ 15

theorem Sound.finds (h : m.Sound) (inst : Instruction) : m.Finds inst := fun role r hr ↦
  ⟨m.registers.getElem?_banks (h.inRange_bank role) (inst.inRange_registers r hr),
    h.registers.get_le _ r⟩

theorem sound_restore_iff (h : m.Sound) {registers : RegisterFile} {control : Control} :
    (m.restore registers control).Sound ↔ registers.Nibbles ∧ control.Sound :=
  ⟨fun hrestored ↦ ⟨hrestored.registers, hrestored.control⟩,
    fun ⟨hregisters, hcontrol⟩ ↦ { h with registers := hregisters, control := hcontrol }⟩

/-- **Stored registers are taken as they stand in the text.** A bank and a register are read from
any number of a byte, and the cells and banks of stored registers are the numbers that were written.
So a machine in order stays in order with stored registers exactly if these numbers are in range.
Then every instruction finds its registers and leaves the machine in order, whether or not it fails;
but a bank that is out of range has no cells. -/
theorem restored_unmasked (h : m.Sound) (text : String) :
    (∀ bank : Bank, read? text = some bank ↔
      Json.parse? text = some (natural bank.number.toNat)) ∧
    (∀ r : Reg, read? text = some r ↔ Json.parse? text = some (natural r.number.toNat)) ∧
    (∀ registers : RegisterFile, read? text = some registers ↔
      ∃ j, Json.parse? text = some j ∧
        fields? ["banks"] j = some [some (encode registers.banks)]) ∧
    (∀ control : Control, read? text = some control ↔
      ∃ j, Json.parse? text = some j ∧
        fields? ["pc", "sp", "sa", "la", "flags", "current_bank", "additional_bank"] j =
          some [some (encode control.pc), some (encode control.sp), some (encode control.sa),
            some (encode control.la), some (encode control.flags),
            some (natural control.currentBank.number.toNat),
            some (natural control.additionalBank.number.toNat)]) ∧
    ∀ (registers : RegisterFile) (control : Control),
      ((m.restore registers control).Sound ↔ registers.Nibbles ∧ control.Sound) ∧
      ((m.restore registers control).Sound → ∀ inst, (m.restore registers control).Finds inst ∧
        (finalState (execute inst (m.restore registers control))).Sound) ∧
      ∀ role, ¬((m.restore registers control).bank role).InRange →
        registers.banks[((m.restore registers control).bank role).number.toNat]? = none := by
  refine ⟨fun bank ↦ read?_eq_some_iff, fun r ↦ read?_eq_some_iff, fun registers ↦ ?_,
    fun control ↦ ?_, fun registers control ↦ ⟨sound_restore_iff h, ?_, ?_⟩⟩
  · rw [read?, Option.bind_eq_some_iff]
    simp only [RegisterFile.decode?_eq_some_iff]
  · rw [read?, Option.bind_eq_some_iff]
    simp only [Control.decode?_eq_some_iff]
    rfl
  · exact fun hrestored inst ↦ ⟨hrestored.finds inst, keeps_execute inst _ hrestored⟩
  · exact fun role hbank ↦ registers.getElem?_banks_eq_none hbank

/-- The number seven is read as a bank, and the stock machine finds no cells under it. -/
theorem restored_unmasked_seven : stockMachine.Sound ∧ ∃ bank : Bank, read? "7" = some bank ∧
    ¬(stockMachine.restore .zero { currentBank := bank }).Sound ∧
    RegisterFile.zero.banks[bank.number.toNat]? = none := by
  have hstock : stockMachine.Sound := (Obtainable.ofLayout {}).sound
  obtain ⟨hbanks, -, -, -, hrestored⟩ := restored_unmasked hstock "7"
  obtain ⟨hsound, -, hcells⟩ := hrestored .zero { currentBank := ⟨7⟩ }
  have hseven : ¬(Bank.mk 7).InRange := by decide
  exact ⟨hstock, ⟨7⟩, (hbanks ⟨7⟩).mpr rfl, fun h ↦ hseven (hsound.mp h).2.currentBank,
    hcells .current hseven⟩

end Machine

end

end CalcWatch
