import CalcWatch.Bus
import CalcWatch.Instruction

/-!
# The machine

The whole state of a watch, and what a step does to it. A step is a computation on this state that
may fault, and a fault does not undo what came before it: the state is part of the outcome either
way. Everything that a step does to the buses is an access of one byte, and all of its accesses come
before the flags and the program counter change.

## Interrupts

Six sources can ask for the program's attention. A source stays pending from the moment it is raised
until its routine is entered, and while one routine is in service no other is entered: what is
raised meanwhile waits. Of several pending sources the first in the order of `all` is taken.

## State

A machine is its registers, its interrupt controller, its two buses, and the addresses it starts
from after a reset. The parts do not overlap, so what an access does to one part leaves the others
as they are; `onMemory` and `onPorts` carry an access of a bus over to the machine and hand back
whatever it did to the bus even when it failed.

## Calls, returns and jumps

A call of a system routine that this machine carries out itself does not touch the stack: it does
the work of the routine and goes on behind the call. Every other call pushes where to resume. The
stack pointer is lowered before the two bytes are written and raised only after both are read, so a
fault of the stack leaves it lowered after a call and unchanged after a return.

## Transfers

Windows travel to memory and to the data port as packed bytes, the most significant digit first.
The bytes of a store are written one after the other, so a fault part way leaves the earlier ones
written; a load reads every byte before it changes a register. The transfer address moves on only
after the last byte.

## Execution

A step enters the routine of an interrupt if one is due, and otherwise fetches, decodes and performs
one instruction. Flags and program counter change only when the instruction has completed; whatever
else it did before a fault stays done.
-/

namespace CalcWatch

/-! ## Interrupts -/

/-! ### Sources -/

inductive InterruptSource where
  /-- The tick of the second. -/
  | secondTimer
  /-- The display wants to be drawn again. -/
  | redrawScreen
  /-- The SET button. -/
  | setButton
  /-- The MODE button. -/
  | modeButton
  /-- The TRANSMIT button. -/
  | transmitButton
  /-- The SELECT button. -/
  | selectButton
deriving DecidableEq, Repr

namespace InterruptSource

/-- The sources, the first to be served first. -/
def all : List InterruptSource :=
  [secondTimer, redrawScreen, setButton, modeButton, transmitButton, selectButton]

/-- The bit of a source in the pending mask. -/
def bit : InterruptSource → UInt8
  | secondTimer => 0x01
  | redrawScreen => 0x02
  | setButton => 0x04
  | modeButton => 0x08
  | transmitButton => 0x10
  | selectButton => 0x20

/-- The call that enters the routine of a source. -/
def vector : InterruptSource → UInt16
  | secondTimer => 0xAC01
  | redrawScreen => 0xAC0D
  | setButton => 0xAC08
  | modeButton => 0xAC05
  | transmitButton => 0xAC06
  | selectButton => 0xAC07

/-- The address of the routine of a source, which is the target of its call. -/
def routine (source : InterruptSource) : UInt16 := (Instruction.mk source.vector .call).target12

def name : InterruptSource → String
  | secondTimer => "SECOND_TIMER"
  | redrawScreen => "REDRAW_SCREEN"
  | setButton => "SET_BUTTON"
  | modeButton => "MODE_BUTTON"
  | transmitButton => "TRANSMIT_BUTTON"
  | selectButton => "SELECT_BUTTON"

theorem mem_all (source : InterruptSource) : source ∈ all := by
  cases source <;> decide

/-- The vector of every source is a call. -/
theorem decode_vector (source : InterruptSource) :
    Instruction.decode source.vector = .ok ⟨source.vector, .call⟩ := by
  cases source <;> rfl

end InterruptSource

/-! ### The controller -/

/-- The pending sources, and whether a routine is in service. -/
structure InterruptController where
  /-- The bits of the pending sources. -/
  pending : UInt8 := 0
  /-- Whether a routine is in service. -/
  servicing : Bool := false
deriving DecidableEq, Repr, Inhabited

namespace InterruptController

def raise (controller : InterruptController) (source : InterruptSource) : InterruptController :=
  { controller with pending := controller.pending ||| source.bit }

def isPending (controller : InterruptController) (source : InterruptSource) : Bool :=
  controller.pending &&& source.bit != 0

/-- The source whose routine is to be entered now. -/
def next? (controller : InterruptController) : Option InterruptSource :=
  if controller.servicing then none else InterruptSource.all.find? controller.isPending

/-- The controller after the routine of a source was entered. -/
def enter (controller : InterruptController) (source : InterruptSource) : InterruptController :=
  { pending := controller.pending &&& ~~~source.bit, servicing := true }

/-- The source to be served, if any, and the controller after its routine was entered. -/
def poll (controller : InterruptController) : Option InterruptSource × InterruptController :=
  match controller.next? with
  | some source => (some source, controller.enter source)
  | none => (none, controller)

/-- Whether a routine was in service, and the controller after it was left. -/
def finish (controller : InterruptController) : Bool × InterruptController :=
  (controller.servicing, { controller with servicing := false })

theorem next?_of_servicing {controller : InterruptController} (h : controller.servicing = true) :
    controller.next? = none := by
  rw [next?, if_pos h]

theorem isPending_of_next? {controller : InterruptController} {source : InterruptSource}
    (h : controller.next? = some source) : controller.isPending source = true := by
  rw [next?] at h
  split at h
  · cases h
  · exact List.find?_some h

end InterruptController

/-! ## State -/

/-- The whole state of a watch. -/
structure Machine where
  /-- The banked registers. -/
  registers : RegisterFile := .zero
  /-- The control registers. -/
  control : Control := {}
  /-- The interrupt controller. -/
  interrupts : InterruptController := {}
  /-- The memory bus. -/
  memory : Bus
  /-- The port bus. -/
  ports : Bus
  /-- The program counter after a reset. -/
  resetPc : UInt16 := stockResetPc
  /-- The stack pointer after a reset. -/
  resetSp : UInt16 := stockResetSp
deriving DecidableEq, Repr

namespace Machine

variable {α : Type}

/-! ### Building and resetting -/

/-- The machine with everything but the buses as it is after a reset. -/
def reset (m : Machine) : Machine :=
  { m with
    registers := .zero
    control := { pc := m.resetPc, sp := m.resetSp }
    interrupts := {} }

def ofLayout (layout : MachineLayout) : Machine :=
  reset
    { memory := layout.memory.build "memory", ports := layout.ports.build "io"
      resetPc := layout.resetPc, resetSp := layout.resetSp }

/-! ### Registers -/

def bank (m : Machine) : BankRole → Bank
  | .current => m.control.currentBank
  | .additional => m.control.additionalBank

/-- The value of a register of the current bank. -/
def reg (m : Machine) (r : Reg) : UInt8 := m.registers.get (m.bank .current) r

/-- The machine with the low four bits of a value in a register of the current bank. -/
def setReg (m : Machine) (r : Reg) (value : UInt8) : Machine :=
  { m with registers := m.registers.set (m.bank .current) r value }

def clearCurrentBank (m : Machine) : Machine :=
  { m with registers := m.registers.clearBank (m.bank .current) }

def raise (m : Machine) (source : InterruptSource) : Machine :=
  { m with interrupts := m.interrupts.raise source }

/-- The machine with the address of the window transfers moved on. -/
def advance (m : Machine) (bytes : Nat) : Machine :=
  { m with control := { m.control with sa := m.control.sa + UInt16.ofNat bytes } }

/-! ### Accesses to the buses -/

/-- Carries an access of the memory bus over to the machine. -/
def onMemory (use : Faulting Bus α) : Faulting Machine α
  | ⟨registers, control, interrupts, memory, ports, resetPc, resetSp⟩ =>
    match use memory with
    | .ok x memory => .ok x ⟨registers, control, interrupts, memory, ports, resetPc, resetSp⟩
    | .error f memory =>
      .error f ⟨registers, control, interrupts, memory, ports, resetPc, resetSp⟩

/-- Carries an access of the port bus over to the machine. -/
def onPorts (use : Faulting Bus α) : Faulting Machine α
  | ⟨registers, control, interrupts, memory, ports, resetPc, resetSp⟩ =>
    match use ports with
    | .ok x ports => .ok x ⟨registers, control, interrupts, memory, ports, resetPc, resetSp⟩
    | .error f ports =>
      .error f ⟨registers, control, interrupts, memory, ports, resetPc, resetSp⟩

/-- The byte in memory at a sixteen-bit address. -/
def memoryByte (m : Machine) (a : UInt16) : Except Fault UInt8 := m.memory.read a.toUInt32

/-- The instruction word at an address, the high byte first. After the last address comes the
first. -/
def fetch (m : Machine) (a : UInt16) : Except Fault UInt16 := do
  let high ← m.memoryByte a
  let low ← m.memoryByte (a + 1)
  pure (high.toUInt16 <<< 8 ||| low.toUInt16)

/-- Places a program image in memory, whether or not programs may write there. -/
def loadImage (base : UInt16) (image : List UInt8) : Faulting Machine Unit :=
  onMemory (Bus.load base.toUInt32 image)

end Machine

/-- The watch as it is sold. -/
def stockMachine : Machine := .ofLayout {}

/-! ### What an instruction leaves to be done -/

/-- What is done once an instruction has run to its end: the flags are updated, and execution goes
on at an address. -/
structure Completion where
  /-- The update of the flags. -/
  flags : FlagUpdate := .keep
  /-- The address of the next instruction. -/
  nextPc : UInt16
deriving DecidableEq, Repr

namespace Machine

variable {α : Type}

/-- The address after the instruction at the program counter. -/
def following (m : Machine) : UInt16 := m.control.pc + instructionBytes.toUInt16

/-- Goes on with the following instruction. -/
def proceed (flags : FlagUpdate := .keep) : Faulting Machine Completion :=
  Faulting.view fun m ↦ ⟨flags, m.following⟩

def complete (m : Machine) (completion : Completion) : Machine :=
  { m with control := { completion.flags.apply m.control with pc := completion.nextPc } }

end Machine

/-! ## Calls, returns and jumps -/

/-! ### Routines -/

/-- What a call of an address does. -/
inductive Routine where
  /-- Sends bytes from the transfer address to the data port. -/
  | stream (count : Nat)
  /-- Clears the current bank. -/
  | clearBank
  /-- Runs the routine stored there. -/
  | stored
deriving DecidableEq, Repr

/-- The first address of the streaming routines. -/
def streamStart : UInt16 := 0x178C

/-- The address after the streaming routines. -/
def streamEnd : UInt16 := 0x17A0

def clearBankAddress : UInt16 := 0x11E4

/-- What a call of an address does. The streaming routines are one unrolled loop, entered the nearer
to its end the fewer bytes are to be sent. -/
def Routine.ofTarget (target : UInt16) : Routine :=
  if streamStart ≤ target ∧ target < streamEnd ∧ target % 2 = 0 then
    .stream ((streamEnd - target) / 2).toNat
  else if target = clearBankAddress then .clearBank
  else .stored

namespace Machine

/-! ### The stack -/

/-- The two bytes of a word on the stack, the low byte first, each with its address. -/
def wordStores (sp word : UInt16) : List (UInt32 × UInt8) :=
  [(sp.toUInt32, word.toUInt8), ((sp + 1).toUInt32, (word >>> 8).toUInt8)]

def setSp (m : Machine) (sp : UInt16) : Machine := { m with control := { m.control with sp } }

def push (word : UInt16) : Faulting Machine Unit := do
  let sp ← Faulting.view fun m ↦ m.control.sp - 2
  Faulting.update (·.setSp sp)
  onMemory (Bus.writeAll (wordStores sp word))

def topWord (m : Machine) : Except Fault UInt16 := do
  let low ← m.memoryByte m.control.sp
  let high ← m.memoryByte (m.control.sp + 1)
  pure (high.toUInt16 <<< 8 ||| low.toUInt16)

def pop : Faulting Machine UInt16 := do
  let word ← Faulting.ask topWord
  Faulting.update fun m ↦ m.setSp (m.control.sp + 2)
  pure word

/-! ### Calls and returns -/

/-- Sends bytes from the transfer address to the data port. The address moves on after every byte
that was taken. -/
def stream : Nat → Faulting Machine Unit
  | 0 => pure ()
  | count + 1 => do
    let byte ← Faulting.ask fun m ↦ m.memoryByte m.control.sa
    onPorts (Bus.write dataPort byte)
    Faulting.update (·.advance 1)
    stream count

/-- Calls a routine; `resume` is where execution goes on after it. -/
def call (target resume : UInt16) : Faulting Machine Completion :=
  match Routine.ofTarget target with
  | .stream count => do
    stream count
    pure { nextPc := resume }
  | .clearBank => do
    Faulting.update clearCurrentBank
    pure { nextPc := resume }
  | .stored => do
    push resume
    pure { nextPc := target }

def ret : Faulting Machine Completion := do
  let target ← pop
  pure { nextPc := target }

/-- Leaves the service of an interrupt, and says whether there was one in service. -/
def leaveService : Faulting Machine Bool := fun m ↦
  let (servicing, interrupts) := m.interrupts.finish
  .ok servicing { m with interrupts }

/-- Returns from an interrupt routine; outside of one nothing happens. -/
def halt : Faulting Machine Completion := do
  if ← leaveService then ret else proceed

/-! ### Jumps -/

/-- The address a number of words away from the following instruction. -/
def wordsAway (m : Machine) (words : Int8) : UInt16 :=
  m.following + (words.toInt16 * 2).toUInt16

/-- Goes on at an address that depends on the machine. -/
def goTo (target : Machine → UInt16) : Faulting Machine Completion :=
  Faulting.view fun m ↦ { nextPc := target m }

end Machine

/-! ## Transfers -/

namespace Machine

/-! ### Windows as bytes -/

def windowBytes (m : Machine) (w : Window) : List UInt8 := pack (w.registers.reverse.map m.reg)

/-- The addresses of the bytes of a window in memory. After the last address comes the first. -/
def windowAddresses (m : Machine) (w : Window) : List UInt16 :=
  (List.range w.byteLength).map fun j ↦ m.control.sa + UInt16.ofNat j

/-- The bytes that storing a window writes, each with its address. -/
def windowStores (m : Machine) (w : Window) : List (UInt32 × UInt8) :=
  ((m.windowAddresses w).map (·.toUInt32)).zip (m.windowBytes w)

/-- The machine with digits in the registers of a window, the first digit in the top register. -/
def fillWindow (m : Machine) (w : Window) (digits : List UInt8) : Machine :=
  (w.registers.reverse.zip digits).foldl (fun m cell ↦ m.setReg cell.1 cell.2) m

/-! ### Memory -/

/-- Moves the transfer address past a window, if asked to. -/
def advancePast (w : Window) (advance : Bool) : Faulting Machine Unit :=
  Faulting.update fun m ↦ if advance then m.advance w.byteLength else m

def storeWindow (w : Window) (advance : Bool) : Faulting Machine Unit := do
  let stores ← Faulting.view (·.windowStores w)
  onMemory (Bus.writeAll stores)
  advancePast w advance

/-- Loads a window from the transfer address. -/
def loadWindow (w : Window) (advance : Bool) : Faulting Machine Unit := do
  let bytes ← Faulting.ask fun m ↦ (m.windowAddresses w).mapM m.memoryByte
  Faulting.update (·.fillWindow w (unpack bytes w.length))
  advancePast w advance

/-! ### Ports -/

def payloadBytes (m : Machine) : Payload → List UInt8
  | .window w => m.windowBytes w
  | .pair high low => [m.reg high <<< 4 ||| m.reg low]
  | .byte value => [value]

/-- Bytes on their way to the data port. -/
def toDataPort (bytes : List UInt8) : List (UInt32 × UInt8) := bytes.map (dataPort, ·)

def send (payload : Payload) : Faulting Machine Unit := do
  let bytes ← Faulting.view (·.payloadBytes payload)
  onPorts (Bus.writeAll (toDataPort bytes))

/-- Sets the display address and sends its low byte to the address port. The address stays set even
if nothing takes the byte. -/
def pointDisplay (a : UInt16) : Faulting Machine Unit := do
  Faulting.update fun m ↦ { m with control := { m.control with la := a } }
  onPorts (Bus.write addressPort a.toUInt8)

/-- Splits a byte from the data port into two registers. -/
def receive (high low : Reg) : Faulting Machine Unit := do
  let byte ← Faulting.ask fun m ↦ m.ports.read dataPort
  Faulting.update fun m ↦ (m.setReg high (byte >>> 4)).setReg low (byte &&& 0x0F)

end Machine

/-! ## Execution -/

namespace Machine

/-! ### Operations -/

/-- Changes the registers, with the flags that this gives. -/
def compute (change : Machine → RegisterFile × FlagUpdate) : Faulting Machine Completion := fun m ↦
  let (registers, flags) := change m
  proceed flags { m with registers }

/-- The flags after one digit was combined: additions say nothing about Zero. -/
def combineFlags (op : DigitOp) (digit : UInt8) (carry : Bool) : FlagUpdate :=
  if op.subtracts then .carryZero carry (digit == 0) else .carry carry

/-- Combines a register of the current bank with an operand. -/
def combined (m : Machine) (op : DigitOp) (step : Assignment) : RegisterFile × FlagUpdate :=
  let bank := m.bank .current
  let (digit, carry) := op.apply (m.reg step.target) (step.operand.value m.registers bank) false
  (m.registers.set bank step.target digit, combineFlags op digit carry)

/-- The flags after a register was compared with an operand. -/
def compared (m : Machine) (r : Reg) (operand : Operand) : FlagUpdate :=
  let value := operand.value m.registers (m.bank .current)
  .carryZero (m.reg r < value) (m.reg r == value)

def setBank (m : Machine) (role : BankRole) (bank : Bank) : Machine :=
  match role with
  | .current => { m with control := { m.control with currentBank := bank } }
  | .additional => { m with control := { m.control with additionalBank := bank } }

/-- Performs an operation up to the point where it is completed. -/
def perform : Operation → Faulting Machine Completion
  | .idle => proceed
  | .combine op step => compute (·.combined op step)
  | .ripple op carry steps =>
    compute fun m ↦
      let (registers, carry) := m.registers.ripple (m.bank .current) op carry steps
      (registers, .carry carry)
  | .compare r operand => compute fun m ↦ (m.registers, m.compared r operand)
  | .comparePairs pairs =>
    compute fun m ↦ (m.registers, m.registers.comparePairs (m.bank .current) pairs)
  | .bitwise op r value =>
    compute fun m ↦ (m.registers.set (m.bank .current) r (op.apply (m.reg r) value), .keep)
  | .assign dst src steps =>
    compute fun m ↦ (m.registers.assign (m.bank dst) (m.bank src) steps, .keep)
  | .selectBank role bank => do
    Faulting.update (·.setBank role bank)
    proceed
  | .branch condition r words =>
    goTo fun m ↦ if condition.holds (m.reg r) then m.wordsAway words else m.following
  | .branchBy r => goTo fun m ↦ m.wordsAway (signExtend (m.reg r) 4)
  | .call target => do
    let resume ← Faulting.view following
    call target resume
  | .jump target => goTo fun _ ↦ target
  | .jumpIf flag value target =>
    goTo fun m ↦ if m.control.flag flag == value then target else m.following
  | .ret => ret
  | .halt => halt
  | .store w advance => do
    storeWindow w advance
    proceed
  | .load w advance => do
    loadWindow w advance
    proceed
  | .send payload => do
    send payload
    proceed
  | .pointMemory a => do
    Faulting.update fun m ↦ { m with control := { m.control with sa := a } }
    proceed
  | .pointDisplay a => do
    pointDisplay a
    proceed
  | .receive high low => do
    receive high low
    proceed

/-! ### Steps and runs -/

/-- Enters the routine of an interrupt: a call from the instruction that would have been next. -/
def enterService (source : InterruptSource) : Faulting Machine Unit := do
  Faulting.update fun m ↦ { m with interrupts := m.interrupts.enter source }
  let resume ← Faulting.view (·.control.pc)
  let completion ← call source.routine resume
  Faulting.update (·.complete completion)

/-- Performs an instruction as if it stood at the program counter, and completes it. -/
def execute (inst : Instruction) : Faulting Machine Unit := do
  let completion ← perform inst.operation
  Faulting.update (·.complete completion)

def nextInstruction (m : Machine) : Except Fault Instruction := do
  Instruction.decode (← m.fetch m.control.pc)

def executeNext : Faulting Machine Unit := do
  let inst ← Faulting.ask nextInstruction
  execute inst

/-- One step. It takes the room of one instruction, whichever it was. -/
def step : Faulting Machine UInt8 := do
  match ← Faulting.view (·.interrupts.next?) with
  | some source => enterService source
  | none => executeNext
  pure instructionBytes

/-- The result of a run: how many steps were completed, and the fault that ended it early. -/
structure RunOutcome where
  /-- The number of completed steps. -/
  steps : Nat
  /-- The fault that ended the run. -/
  fault : Option Fault
deriving DecidableEq, Repr

/-- Takes up to `more` steps after `taken` have been taken. -/
def runFrom (taken : Nat) : Nat → Machine → RunOutcome × Machine
  | 0, m => (⟨taken, none⟩, m)
  | more + 1, m =>
    match step m with
    | .ok _ m => runFrom (taken + 1) more m
    | .error f m => (⟨taken, some f⟩, m)

/-- Takes up to `limit` steps, stopping at the first fault. -/
def run (limit : Nat) (m : Machine) : RunOutcome × Machine := runFrom 0 limit m

end Machine

end CalcWatch
