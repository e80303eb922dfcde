import CalcWatch.Machine

/-!
# Runs that are watched

A run of a program as the command line asks for it: with a timer, and with a report of what happens.

## The journal

What a machine that is being watched reports while it works. The report of a step is derived from
the state before it: which instruction is due, which bytes it is going to store, and how far it will
get before one is refused. So the machine itself keeps no log, and watching it cannot change what it
does.

## Runs with a timer

A run of a program with the second timer raised at a fixed rate. The timer is raised between steps:
never before the first and never after the last.
-/

namespace CalcWatch

/-! ## The journal -/

/-! ### Events -/

inductive LogLevel where
  /-- Of interest to everyone. -/
  | info
  /-- Of interest when something is wrong. -/
  | debug
  /-- Every detail. -/
  | trace
deriving DecidableEq, Repr

/-- The level in five characters. -/
def LogLevel.text : LogLevel → String
  | info => "INFO "
  | debug => "DEBUG"
  | trace => "TRACE"

inductive Event where
  /-- A device was attached to a bus. -/
  | attached (bus : String) (range : AddressRange)
  /-- Bytes were placed on a bus. -/
  | loaded (bus : String) (count : Nat) (base : UInt32)
  /-- A run begins. -/
  | started (count : Nat) (base : UInt16) (steps : UInt32)
  /-- An interrupt is about to enter its routine. -/
  | dispatched (source : InterruptSource) (pc : UInt16)
  /-- An instruction is about to be performed. -/
  | fetched (pc : UInt16) (inst : Instruction)
  /-- A streaming routine was called. -/
  | streaming (target : UInt16) (count : Nat) (sa : UInt16)
  /-- The routine that clears a bank was called. -/
  | clearing (target : UInt16) (bank : Bank)
  /-- An interrupt routine is left. -/
  | resumed (pc : UInt16)
  /-- A byte was sent to a port. -/
  | sent (port : UInt32) (value : UInt8)
deriving DecidableEq, Repr

namespace Event

def level : Event → LogLevel
  | started _ _ _ => .info
  | attached _ _ | loaded _ _ _ | dispatched _ _ | streaming _ _ _ | clearing _ _ | resumed _ =>
    .debug
  | fetched _ _ | sent _ _ => .trace

/-- The part of the program that an event is reported under. -/
def origin : Event → String
  | attached _ _ | loaded _ _ _ => "nibble_core::memory::bus"
  | started _ _ _ => "nibble_run"
  | dispatched _ _ | fetched _ _ => "nibble_core::execute"
  | streaming _ _ _ | clearing _ _ | resumed _ => "nibble_core::execute::control"
  | sent _ _ => "nibble_core::peripherals::port_latch"

def text : Event → String
  | attached bus range =>
    bus ++ " bus: attached device " ++ Text.address range.low.toNat ++ ".."
      ++ Text.address range.high.toNat
  | loaded bus count base =>
    bus ++ " bus: loaded " ++ Text.decimal count ++ " bytes at " ++ Text.address base.toNat
  | started count base steps =>
    "loaded " ++ Text.decimal count ++ " bytes at " ++ Text.address base.toNat
      ++ ", running up to " ++ Text.decimal steps.toNat ++ " steps"
  | dispatched source pc =>
    "dispatching " ++ source.name ++ " from " ++ Text.address pc.toNat ++ " to "
      ++ Text.address source.routine.toNat
  | fetched pc inst =>
    Text.address pc.toNat ++ ": " ++ Text.hex 4 inst.word.toNat ++ " " ++ inst.form.mnemonic
  | streaming target count sa =>
    "intercepted " ++ Text.address target.toNat ++ ": streaming " ++ Text.decimal count
      ++ " bytes from " ++ Text.address sa.toNat
  | clearing target bank =>
    "intercepted " ++ Text.address target.toNat ++ ": clearing bank "
      ++ String.singleton bank.letter
  | resumed pc => "interrupt service finished, resuming at " ++ Text.address pc.toNat
  | sent port value =>
    "io port " ++ Text.decimal port.toNat ++ ": 0x" ++ Text.hex 2 value.toNat

def line (event : Event) : String :=
  "[" ++ event.level.text ++ " " ++ event.origin ++ "] " ++ event.text

end Event

/-! ### What a bus will take -/

namespace Bus

/-- Whether a program's byte would be taken at an address. -/
def takes (bus : Bus) (store : UInt32 × UInt8) : Bool :=
  match bus.serving? store.1 with
  | some device => device.writable && (device.check store.1 store.2).toBool
  | none => false

/-- Whether a latch serves an address. -/
def hasPort (bus : Bus) (a : UInt32) : Bool :=
  match bus.serving? a with
  | some (.latch _) => true
  | _ => false

/-- The reports of the bytes that are taken, up to the first that is refused. -/
def reports (bus : Bus) (stores : List (UInt32 × UInt8)) : List Event :=
  ((stores.takeWhile bus.takes).filter fun store ↦ bus.hasPort store.1).map fun store ↦
    .sent store.1 store.2

end Bus

/-! ### What a step will report -/

namespace Machine

/-- The bytes from the transfer address up to the first that cannot be read. -/
def readableBytes (m : Machine) (count : Nat) : List UInt8 :=
  (((List.range count).map fun j ↦ m.memoryByte (m.control.sa + UInt16.ofNat j)).takeWhile
    (·.toBool)).filterMap (·.toOption)

def callReports (m : Machine) (target resume : UInt16) : List Event :=
  match Routine.ofTarget target with
  | .stream count =>
    .streaming target count m.control.sa :: m.ports.reports (toDataPort (m.readableBytes count))
  | .clearBank => [.clearing target (m.bank .current)]
  | .stored => m.memory.reports (wordStores (m.control.sp - 2) resume)

def operationReports (m : Machine) : Operation → List Event
  | .call target => m.callReports target m.following
  | .halt =>
    if m.interrupts.servicing then
      match m.topWord with
      | .ok pc => [.resumed pc]
      | .error _ => []
    else []
  | .store w _ => m.memory.reports (m.windowStores w)
  | .send payload => m.ports.reports (toDataPort (m.payloadBytes payload))
  | .pointDisplay a => m.ports.reports [(addressPort, a.toUInt8)]
  | _ => []

/-- The reports of the next step. -/
def stepReports (m : Machine) : List Event :=
  match m.interrupts.next? with
  | some source =>
    .dispatched source m.control.pc :: m.callReports source.routine m.control.pc
  | none =>
    match m.nextInstruction with
    | .ok inst => .fetched m.control.pc inst :: m.operationReports inst.operation
    | .error _ => []

/-- The reports of building a machine. -/
def buildReports (m : Machine) : List Event :=
  [m.memory, m.ports].flatMap fun bus ↦
    bus.devices.map fun device ↦ .attached bus.name device.range

end Machine

/-! ## Runs with a timer -/

/-- The step at which a run failed. -/
structure StepFailure where
  /-- How many steps were completed before it. -/
  step : Nat
  /-- The program counter before it. -/
  pc : UInt16
  /-- The fault. -/
  fault : Fault
deriving DecidableEq, Repr

namespace Machine

/-- Whether the timer is due after a number of steps. A period of zero is none. -/
def timerDue (every : Option UInt32) (taken : Nat) : Bool :=
  match every with
  | some n => n != 0 && taken != 0 && taken % n.toNat == 0
  | none => false

/-- The machine before the next step, with the timer raised if it is due. -/
def tick (m : Machine) (every : Option UInt32) (taken : Nat) : Machine :=
  if timerDue every taken then m.raise .secondTimer else m

/-- Takes up to `more` steps after `taken` have been taken. -/
def runTimedFrom (every : Option UInt32) (taken : Nat) :
    Nat → Machine → Option StepFailure × Machine
  | 0, m => (none, m)
  | more + 1, m =>
    let m := m.tick every taken
    let pc := m.control.pc
    match step m with
    | .ok _ m => runTimedFrom every (taken + 1) more m
    | .error fault m => (some ⟨taken, pc, fault⟩, m)

/-- Takes up to `steps` steps, stopping at the first fault. -/
def runTimed (every : Option UInt32) (steps : Nat) (m : Machine) : Option StepFailure × Machine :=
  runTimedFrom every 0 steps m

/-- The reports of a run, added to those in `earlier`, which stand last first. -/
def runReportsFrom (every : Option UInt32) (earlier : List Event) (taken : Nat) :
    Nat → Machine → List Event
  | 0, _ => earlier.reverse
  | more + 1, m =>
    let m := m.tick every taken
    let earlier := m.stepReports.reverse ++ earlier
    match step m with
    | .ok _ m => runReportsFrom every earlier (taken + 1) more m
    | .error _ _ => earlier.reverse

def runReports (every : Option UInt32) (steps : Nat) (m : Machine) : List Event :=
  runReportsFrom every [] 0 steps m

end Machine

end CalcWatch
