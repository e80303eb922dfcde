import CalcWatch.Proofs.Bus.Contents
import CalcWatch.Proofs.Registers.Cells

/-!
# The parts of a machine in order

Nothing that is done to a register file or to a device brings it out of order, if it is in order to
begin with. It is said here of each part by itself.

## Registers in order

A store into the register file keeps four bits, so a file that starts out with nibbles holds nothing
else. The cell that is meant is given by two numbers, and these never lead outside of the file: the
fields of an instruction are as wide as they need to be, and every register that is counted off from
one of them is counted modulo thirty-two.

## Devices in order

A device that a constructor has made, and that has been used only through its accesses since, is in
order: it has a cell or a port for every address of its range, and no cell holds more than it can.
The first is told by the blank device, which no access changes; the second is kept because a byte is
checked against the width of the cell before anything is written. Neither programs nor hosts can do
anything else to the devices of a bus, so a bus of such devices stays one.
-/

namespace CalcWatch

/-! ## Registers in order -/

/-! ### The cells -/

namespace RegisterFile

def Nibbles (file : RegisterFile) : Prop := ∀ c, file.peek c ≤ 15

theorem nibbles_zero : zero.Nibbles := by
  intro c
  simp [peek, zero]

variable {file : RegisterFile}

theorem forall_peek_set (P : UInt8 → Prop) (h : ∀ c, P (file.peek c)) (bank : Bank) (r : Reg)
    {value : UInt8} (hvalue : P (value &&& 0x0F)) (c : Cell) :
    P ((file.set bank r value).peek c) := by
  rw [peek_set]
  split
  · exact hvalue
  · exact h c

theorem forall_peek_clearBank (P : UInt8 → Prop) (h : ∀ c, P (file.peek c)) (bank : Bank)
    (hzero : P 0) (c : Cell) :
    P ((file.clearBank bank).peek c) := by
  obtain ⟨b, i⟩ := c
  by_cases hb : bank.slot = b
  · simpa [peek, clearBank, hb] using hzero
  · rw [agreeOff_clearBank file bank (b, i)]
    · exact h _
    · simp [hb]

theorem Nibbles.set (h : file.Nibbles) (bank : Bank) (r : Reg) (value : UInt8) :
    (file.set bank r value).Nibbles :=
  forall_peek_set (· ≤ 15) h bank r UInt8.and_le_right

theorem Nibbles.clearBank (h : file.Nibbles) (bank : Bank) : (file.clearBank bank).Nibbles :=
  forall_peek_clearBank (· ≤ 15) h bank UInt8.zero_le

theorem Nibbles.assign (h : file.Nibbles) (dst src : Bank) (steps : List Assignment) :
    (file.assign dst src steps).Nibbles := by
  induction steps generalizing file with
  | nil => exact h
  | cons step steps ih => exact ih (h.set dst step.target _)

theorem Nibbles.ripple (h : file.Nibbles) (bank : Bank) (op : DigitOp) (carry : Bool)
    (steps : List Assignment) : (file.ripple bank op carry steps).1.Nibbles := by
  induction steps generalizing file carry with
  | nil => exact h
  | cons step steps ih =>
    rw [ripple_cons]
    exact ih (h.set bank step.target _) _

theorem Nibbles.get_le (h : file.Nibbles) (bank : Bank) (r : Reg) : file.get bank r ≤ 15 :=
  h (bank.cell r)

theorem Nibbles.le_of_mem_cells (h : file.Nibbles) {bank : Bank} {value : UInt8}
    (hmem : value ∈ file.cells bank) : value ≤ 15 := by
  obtain ⟨i, hi, rfl⟩ := List.mem_iff_getElem.mp hmem
  rw [cells, Vector.length_toList] at hi
  exact h (bank.slot, ⟨i, hi⟩)

end RegisterFile

/-! ### The numbers of a cell -/

/-- The number of a bank that there is. -/
def Bank.InRange (bank : Bank) : Prop := bank.number ≤ 3

/-- The number of a register that there is. -/
def Reg.InRange (r : Reg) : Prop := r.number ≤ 31

instance (bank : Bank) : Decidable bank.InRange := inferInstanceAs (Decidable (_ ≤ _))

instance (r : Reg) : Decidable r.InRange := inferInstanceAs (Decidable (_ ≤ _))

theorem Bank.inRange_ofByte (b : UInt8) : (ofByte b).InRange := UInt8.and_le_right

theorem Reg.inRange_ofByte (b : UInt8) : (ofByte b).InRange := UInt8.and_le_right

theorem Bank.toNat_number_of_inRange {bank : Bank} (h : bank.InRange) :
    bank.number.toNat = bank.slot.val := by
  rw [slot, Fin.val_ofNat]
  exact (Nat.mod_eq_of_lt (Nat.lt_succ_of_le (UInt8.le_iff_toNat_le.mp h))).symm

theorem Reg.toNat_number_of_inRange {r : Reg} (h : r.InRange) : r.number.toNat = r.slot.val := by
  rw [slot, Fin.val_ofNat]
  exact (Nat.mod_eq_of_lt (Nat.lt_succ_of_le (UInt8.le_iff_toNat_le.mp h))).symm

/-- The numbers as they are carried lead to a cell, and no reduction takes place. -/
theorem RegisterFile.getElem?_banks (file : RegisterFile) {bank : Bank} {r : Reg}
    (hbank : bank.InRange) (hr : r.InRange) :
    (file.banks[bank.number.toNat]?.bind fun cells ↦ cells[r.number.toNat]?)
      = some (file.get bank r) := by
  rw [Bank.toNat_number_of_inRange hbank, Reg.toNat_number_of_inRange hr]
  simp [get]

/-! #### Registers of an operation -/

def Operand.registers : Operand → List Reg
  | register r => [r]
  | immediate _ => []

def Assignment.registers (step : Assignment) : List Reg := step.target :: step.operand.registers

def Payload.registers : Payload → List Reg
  | window w => w.registers
  | pair high low => [high, low]
  | byte _ => []

/-- The registers that an operation names, to read them or to write them. -/
def Operation.registers : Operation → List Reg
  | combine _ step => step.registers
  | ripple _ _ steps | assign _ _ steps => steps.flatMap Assignment.registers
  | compare r operand => r :: operand.registers
  | comparePairs pairs => pairs.flatMap fun pair ↦ [pair.1, pair.2]
  | bitwise _ r _ | branch _ r _ | branchBy r => [r]
  | store w _ | load w _ => w.registers
  | send payload => payload.registers
  | receive high low => [high, low]
  | _ => []

/-- The banks that an operation names; all others are banks of the machine. -/
def Operation.banks : Operation → List Bank
  | selectBank _ bank => [bank]
  | _ => []

/-- All registers that a step names exist. -/
def Assignment.InRange (step : Assignment) : Prop := ∀ r ∈ step.registers, r.InRange

theorem Assignment.InRange.register {r r' : Reg} (h : r.InRange) (h' : r'.InRange) :
    InRange ⟨r, .register r'⟩ :=
  List.forall_mem_cons.mpr ⟨h, List.forall_mem_singleton.mpr h'⟩

theorem Assignment.InRange.immediate {r : Reg} (h : r.InRange) (value : UInt8) :
    InRange ⟨r, .immediate value⟩ :=
  List.forall_mem_singleton.mpr h

namespace Window

variable (w : Window)

theorem inRange_reg (i : ℕ) : (w.reg i).InRange := Reg.inRange_ofByte _

theorem inRange_registers : ∀ r ∈ w.registers, r.InRange :=
  List.forall_mem_map.mpr fun i _ ↦ w.inRange_reg i

theorem inRange_zipWith (other : Window) : ∀ step ∈ w.zipWith other, step.InRange :=
  List.forall_mem_map.mpr fun i _ ↦ .register (w.inRange_reg i) (other.inRange_reg i)

theorem inRange_zipDown (r : Reg) : ∀ step ∈ w.zipDown r, step.InRange :=
  List.forall_mem_map.mpr fun i _ ↦ .register (w.inRange_reg i) (Reg.inRange_ofByte _)

theorem inRange_shiftUp (h : w.first.InRange) : ∀ step ∈ w.shiftUp, step.InRange := by
  refine List.forall_mem_append.mpr ⟨List.forall_mem_map.mpr fun i _ ↦ ?_, ?_⟩
  · exact .register (w.inRange_reg (i + 1)) (w.inRange_reg i)
  · exact List.forall_mem_singleton.mpr (.immediate h 0)

theorem inRange_shiftDown : ∀ step ∈ w.shiftDown, step.InRange := by
  refine List.forall_mem_append.mpr ⟨List.forall_mem_map.mpr fun i _ ↦ ?_, ?_⟩
  · exact .register (w.inRange_reg i) (w.inRange_reg (i + 1))
  · exact List.forall_mem_singleton.mpr (.immediate (w.inRange_reg _) 0)

theorem inRange_clear : ∀ step ∈ w.clear, step.InRange :=
  List.forall_mem_map.mpr fun r hr ↦ .immediate (w.inRange_registers r hr) 0

theorem inRange_pairsFromTop (other : Window) :
    ∀ r ∈ (w.pairsFromTop other).flatMap fun pair ↦ [pair.1, pair.2], r.InRange := by
  intro r hr
  obtain ⟨pair, hpair, hr⟩ := List.mem_flatMap.mp hr
  obtain ⟨i, -, rfl⟩ := List.mem_map.mp hpair
  rcases List.mem_pair.mp hr with rfl | rfl
  · exact w.inRange_reg i
  · exact other.inRange_reg i

end Window

namespace Instruction

variable (inst : Instruction)

theorem inRange_registerStep : inst.registerStep.InRange :=
  .register (Reg.inRange_ofByte _) (Reg.inRange_ofByte _)

theorem inRange_immediateStep : inst.immediateStep.InRange :=
  .immediate (Reg.inRange_ofByte _) _

theorem inRange_groupSteps : ∀ step ∈ inst.groupSteps, step.InRange :=
  List.forall_mem_map.mpr fun r hr ↦ by
    obtain ⟨i, -, rfl⟩ := List.mem_map.mp hr
    exact .immediate (Reg.inRange_ofByte _) 0

private theorem inRange_flatMap {steps : List Assignment} (h : ∀ step ∈ steps, step.InRange) :
    ∀ r ∈ steps.flatMap Assignment.registers, r.InRange := by
  intro r hr
  obtain ⟨step, hstep, hr⟩ := List.mem_flatMap.mp hr
  exact h step hstep r hr

theorem inRange_registers : ∀ r ∈ inst.operation.registers, r.InRange := by
  have hd : inst.d.InRange := Reg.inRange_ofByte _
  have hs : inst.s.InRange := Reg.inRange_ofByte _
  obtain ⟨word, form⟩ := inst
  cases form with
  | nop | ret | hlt | lcrb | larb | call | jmp | jz | jnz | jc | jnc | psai | plai | stli =>
    exact nofun
  | add | adb | sub | sbb => exact inRange_registerStep _
  | adi | adbi | sbi | sbbi => exact inRange_immediateStep _
  | adm | adbm | sbm | sbbm | mvacm | mvcam => exact inRange_flatMap (Window.inRange_zipWith _ _)
  | inc | incb | dec | decb => exact inRange_flatMap (inRange_groupSteps _)
  | mov | mvac | mvca =>
    exact inRange_flatMap (List.forall_mem_singleton.mpr (inRange_registerStep _))
  | ldi => exact inRange_flatMap (List.forall_mem_singleton.mpr (inRange_immediateStep _))
  | movm => exact inRange_flatMap (Window.inRange_zipDown _ _)
  | rshm => exact inRange_flatMap (Window.inRange_shiftUp _ hd)
  | lshm => exact inRange_flatMap (Window.inRange_shiftDown _)
  | clrm => exact inRange_flatMap (Window.inRange_clear _)
  | cmp | stl | inp => exact List.forall_mem_cons.mpr ⟨hd, List.forall_mem_singleton.mpr hs⟩
  | cpi | andi | ori | xori | cpfjr | ijmr | cpjr | btjr => exact List.forall_mem_singleton.mpr hd
  | cpm => exact Window.inRange_pairsFromTop _ _
  | psam | plam | ldsm | stsm | stlm => exact Window.inRange_registers _

theorem inRange_banks : ∀ bank ∈ inst.operation.banks, bank.InRange := by
  obtain ⟨word, form⟩ := inst
  cases form with
  | lcrb | larb => exact List.forall_mem_singleton.mpr (Bank.inRange_ofByte _)
  | _ => exact nofun

end Instruction

/-! ## Devices in order -/

section

open Faulting (Keeps finalState)

/-! ### One device -/

namespace Device

/-- The devices there are: what the constructors make, and what accesses make of it. -/
inductive Built : Device → Prop where
  /-- Bytes. -/
  | bytes (range : AddressRange) (readable writable : Bool) (order : ByteOrder) :
    Built (.store { range, readable, writable, order })
  /-- Digits. -/
  | nibbles (range : AddressRange) (order : ByteOrder) :
    Built (.store { range, width := .nibble, order })
  /-- Ports. -/
  | ports (range : AddressRange) (captureLimit : ℕ) : Built (.latch { range, captureLimit })
  | write {device : Device} (h : Built device) (a : UInt32) (value : UInt8) :
    Built (finalState (write a value device))
  | writeWide {device : Device} (h : Built device) (width : Width) (a : UInt32) (value : ℕ) :
    Built (finalState (writeWide width a value device))
  | load {device : Device} (h : Built device) (a : UInt32) (value : UInt8) :
    Built (finalState (load a value device))
  | clearOutput {latch : PortLatch} (h : Built (.latch latch)) : Built (.latch latch.clearOutput)

theorem built_build (layout : DeviceLayout) : layout.build.Built := by
  obtain ⟨kind, low, high, order⟩ := layout
  cases kind with
  | ram => exact .bytes _ true true order
  | rom => exact .bytes _ true false order
  | nibble => exact .nibbles _ order
  | portLatch => exact .ports _ stockCaptureLimit

def size : Device → ℕ
  | store cells => cells.cells.toArray.size
  | latch ports => ports.ports.toArray.size

/-- Every cell holds what it can hold. -/
def Fits : Device → Prop
  | store cells => ∀ value ∈ cells.cells, value ≤ cells.width.largest
  | latch _ => True

/-- A device that can be relied on. -/
structure InOrder (device : Device) : Prop where
  /-- The bounds of the range are in order. -/
  low_le_high : device.range.low ≤ device.range.high
  /-- There is a cell or a port for every address. -/
  size : device.size = device.range.high.toNat - device.range.low.toNat
  /-- No address of the range leads outside of the device. -/
  index_lt : ∀ a, device.contains a = true → (a - device.range.low).toNat < device.size
  /-- Every cell holds what it can hold. -/
  fits : device.Fits

/-! #### Devices stay what they are -/

theorem keeps_blank_guarded (blank₀ : Device) {check : Device → Except Fault Unit}
    {change : Device → Device} (hchange : ∀ device, (change device).blank = device.blank) :
    Keeps (·.blank = blank₀) (Faulting.guarded check change) := by
  intro device h
  rw [Faulting.guarded]
  split
  · exact (hchange device).trans h
  · exact h

theorem keeps_blank_write (blank₀ : Device) (a : UInt32) (value : UInt8) :
    Keeps (·.blank = blank₀) (write a value) := keeps_blank_guarded _ (·.blank_put value)

theorem keeps_blank_load (blank₀ : Device) (a : UInt32) (value : UInt8) :
    Keeps (·.blank = blank₀) (load a value) := keeps_blank_guarded _ (·.blank_install value)

theorem keeps_blank_writeWide (blank₀ : Device) (width : Width) (a : UInt32) (value : ℕ) :
    Keeps (·.blank = blank₀) (writeWide width a value) := by
  refine (Faulting.keeps_view _).bind fun order ↦ Faulting.keeps_forM (fun i ↦ ?_) _
  exact (Faulting.keeps_ask _).bind fun b ↦ keeps_blank_write _ b _

/-- Where digits are kept, programs may read and write them. -/
def Open : Device → Prop
  | store cells => cells.width = .nibble → cells.readable = true ∧ cells.writable = true
  | latch _ => True

theorem Open.of_blank {device device' : Device} (h : device.Open)
    (hsame : device'.blank = device.blank) : device'.Open := by
  have hopen : device'.Open = device.Open :=
    eq_of_blank Open (fun device ↦ by cases device <;> rfl) hsame
  rwa [hopen]

theorem Built.isOpen {device : Device} (h : device.Built) : device.Open := by
  induction h with
  | bytes range readable writable order => exact nofun
  | nibbles range order => exact fun _ ↦ ⟨rfl, rfl⟩
  | ports range captureLimit => trivial
  | @write device _ a value ih => exact ih.of_blank (keeps_blank_write _ a value device rfl)
  | @writeWide device _ width a value ih =>
    exact ih.of_blank (keeps_blank_writeWide _ width a value device rfl)
  | @load device _ a value ih => exact ih.of_blank (keeps_blank_load _ a value device rfl)
  | clearOutput => trivial

/-! #### Cells hold what they can -/

private theorem fits_put {cells : CellStore} {a : UInt32} {value : UInt8}
    (hvalue : value ≤ cells.width.largest) (h : (store cells).Fits) :
    (store (cells.put a value)).Fits := by
  cases hindex : cells.range.index? a with
  | none => rwa [CellStore.put, hindex]
  | some i =>
    rw [CellStore.put_of_index value hindex]
    intro other hother
    change other ∈ cells.cells.set i value at hother
    rcases Vector.mem_or_eq_of_mem_set hother with hold | rfl
    · exact h other hold
    · exact hvalue

theorem le_largest_of_check {cells : CellStore} {a : UInt32} {value : UInt8}
    (h : cells.check a value = .ok ()) : value ≤ cells.width.largest := by
  rw [CellStore.check] at h
  split at h
  · split at h
    · assumption
    · cases h
  · cases h

theorem keeps_fits_guarded {a : UInt32} {value : UInt8} {change : Device → Device}
    (hstore : ∀ cells, change (store cells) = store (cells.put a value))
    (hlatch : ∀ ports, (change (latch ports)).Fits) :
    Keeps Fits (Faulting.guarded (check a value) change) := by
  intro device h
  cases hcheck : device.check a value with
  | error f => rwa [Faulting.guarded_of_error _ hcheck]
  | ok u =>
    rw [Faulting.guarded_of_ok _ hcheck]
    cases device with
    | store cells =>
      rw [finalState, hstore]
      exact fits_put (le_largest_of_check hcheck) h
    | latch ports => exact hlatch ports

theorem keeps_fits_write (a : UInt32) (value : UInt8) : Keeps Fits (write a value) :=
  keeps_fits_guarded (fun _ ↦ rfl) fun _ ↦ trivial

theorem keeps_fits_load (a : UInt32) (value : UInt8) : Keeps Fits (load a value) :=
  keeps_fits_guarded (fun _ ↦ rfl) fun _ ↦ trivial

theorem keeps_fits_writeWide (width : Width) (a : UInt32) (value : ℕ) :
    Keeps Fits (writeWide width a value) := by
  refine (Faulting.keeps_view _).bind fun order ↦ Faulting.keeps_forM (fun i ↦ ?_) _
  exact (Faulting.keeps_ask _).bind fun b ↦ keeps_fits_write b _

theorem Built.fits {device : Device} (h : device.Built) : device.Fits := by
  induction h with
  | bytes range readable writable order =>
    intro value hvalue
    rw [Vector.eq_of_mem_replicate hvalue]
    exact UInt8.zero_le
  | nibbles range order =>
    intro value hvalue
    rw [Vector.eq_of_mem_replicate hvalue]
    exact UInt8.zero_le
  | ports range captureLimit => trivial
  | write _ a value ih => exact keeps_fits_write a value _ ih
  | writeWide _ width a value ih => exact keeps_fits_writeWide width a value _ ih
  | load _ a value ih => exact keeps_fits_load a value _ ih
  | clearOutput => trivial

theorem size_eq (device : Device) :
    device.size = device.range.high.toNat - device.range.low.toNat := by
  cases device with
  | store cells => exact cells.cells.size_toArray
  | latch ports => exact ports.ports.size_toArray

theorem Built.inOrder {device : Device} (h : device.Built) : device.InOrder where
  low_le_high := device.range.low_le_high
  size := device.size_eq
  index_lt a ha := by
    obtain ⟨hlow, hhigh⟩ := AddressRange.contains_iff.mp ha
    rw [size_eq, UInt32.toNat_sub_of_le _ _ hlow]
    exact Nat.sub_lt_sub_right hlow hhigh
  fits := h.fits

end Device

/-! ### Buses -/

namespace Bus

/-- Every device of the bus is one of those there are. -/
def Built (bus : Bus) : Prop := ∀ device ∈ bus.devices, device.Built

theorem built_build (layout : BusLayout) (name : String) : (layout.build name).Built := by
  intro device hmem
  obtain ⟨layout, -, rfl⟩ := List.mem_map.mp hmem
  exact Device.built_build layout

variable {α : Type}

theorem keeps_serve (P : Device → Prop) {use : Faulting Device α} (huse : Keeps P use)
    (a : UInt32) : Keeps (fun devices ↦ ∀ device ∈ devices, P device) (serve a use) := by
  intro devices h
  induction devices with
  | nil => exact h
  | cons device rest ih =>
    rw [List.forall_mem_cons] at h
    rw [serve]
    split
    · have hdevice := huse device h.1
      cases hu : use device <;> rw [hu] at hdevice <;> exact List.forall_mem_cons.mpr ⟨hdevice, h.2⟩
    · have hrest := ih h.2
      cases hs : serve a use rest <;> rw [hs] at hrest <;>
        exact List.forall_mem_cons.mpr ⟨h.1, hrest⟩

theorem keeps_access {use : Faulting Device α} (huse : Keeps Device.Built use) (a : UInt32) :
    Keeps Built (access a use) := by
  intro bus h
  have hserve := keeps_serve _ huse a bus.devices h
  obtain ⟨name, devices⟩ := bus
  rw [access]
  cases hs : serve a use devices <;> rw [hs] at hserve <;> exact hserve

theorem keeps_ifWritable {P : Device → Prop} {use : Faulting Device α} (huse : Keeps P use)
    (a : UInt32) : Keeps P (ifWritable a use) := by
  intro device h
  rw [ifWritable]
  split
  · exact huse device h
  · exact h

theorem keeps_write (a : UInt32) (value : UInt8) : Keeps Built (write a value) :=
  keeps_access (keeps_ifWritable (fun _ h ↦ h.write a value) a) a

theorem keeps_writeWide (width : Width) (a : UInt32) (value : ℕ) :
    Keeps Built (writeWide width a value) :=
  keeps_access (keeps_ifWritable (fun _ h ↦ h.writeWide width a value) a) a

theorem keeps_writeAll (stores : List (UInt32 × UInt8)) : Keeps Built (writeAll stores) := by
  refine Faulting.keeps_forM (fun store ↦ ?_) stores
  exact keeps_write store.1 store.2

theorem keeps_load (base : UInt32) (bytes : List UInt8) : Keeps Built (load base bytes) := by
  refine Faulting.keeps_forM (fun byte ↦ ?_) _
  exact (Faulting.keeps_ask _).bind fun a ↦ keeps_access (fun _ h ↦ h.load a byte.1) a

variable {bus : Bus}

theorem Built.attach (h : bus.Built) {device : Device} (hdevice : device.Built) :
    (bus.attach device).Built := by
  intro other hmem
  rcases List.mem_append.mp hmem with hmem | hmem
  · exact h other hmem
  · rwa [List.mem_singleton.mp hmem]

theorem Built.detach (h : bus.Built) (i : ℕ) : (bus.detach i).2.Built :=
  fun device hmem ↦ h device (List.mem_of_mem_eraseIdx hmem)

theorem built_clear (bus : Bus) : bus.clear.Built := nofun

end Bus

end

end CalcWatch
