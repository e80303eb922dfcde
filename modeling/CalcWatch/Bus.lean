import CalcWatch.Device
import CalcWatch.Register

/-!
# Buses and their layouts

A machine has two buses, one for memory and one for ports, and they work alike.

## Buses

A bus is an ordered list of devices. An access goes to the first device that claims its address,
even where later devices claim it too, and if that device does not permit the access it fails: a
later device is never asked. A wide access goes to one device as a whole, so it does not run on into
the next one.

## Layouts

A layout is the description from which a machine is built: the devices of its two buses in the order
in which they are asked, and where execution begins after a reset. The stock layout is the watch as
it is sold.
-/

namespace CalcWatch

/-! ## Buses -/

/-- An ordered list of devices under a name. -/
structure Bus where
  /-- The name, for diagnostics. -/
  name : String
  /-- The devices, the first to be asked first. -/
  devices : List Device := []
deriving DecidableEq, Repr

namespace Bus

variable {α : Type}

/-! ### Which device serves an address -/

/-- The device that serves an address. -/
def serving? (bus : Bus) (a : UInt32) : Option Device := bus.devices.find? (·.contains a)

/-- The position of the device that serves an address. -/
def resolve (bus : Bus) (a : UInt32) : Except Fault Nat :=
  match bus.devices.findIdx? (·.contains a) with
  | some i => .ok i
  | none => .error (.unmappedAddress a)

/-- The device that serves an address for reading. -/
def reader (bus : Bus) (a : UInt32) : Except Fault Device :=
  match bus.serving? a with
  | some device => if device.readable then .ok device else .error (.readDenied a)
  | none => .error (.unmappedAddress a)

/-- Hands an access to the first of several devices that claims the address. The other devices are
not touched, whatever the access does. -/
def serve (a : UInt32) (access : Faulting Device α) : Faulting (List Device) α
  | [] => .error (.unmappedAddress a) []
  | device :: rest =>
    if device.contains a then
      match access device with
      | .ok x device => .ok x (device :: rest)
      | .error f device => .error f (device :: rest)
    else
      match serve a access rest with
      | .ok x rest => .ok x (device :: rest)
      | .error f rest => .error f (device :: rest)

/-- Hands an access to the device that serves the address. -/
def access (a : UInt32) (use : Faulting Device α) : Faulting Bus α
  | ⟨name, devices⟩ =>
    match serve a use devices with
    | .ok x devices => .ok x ⟨name, devices⟩
    | .error f devices => .error f ⟨name, devices⟩

/-- Lets a device be written if it permits that. -/
def ifWritable (a : UInt32) (use : Faulting Device α) : Faulting Device α := fun device ↦
  if device.writable then use device else .error (.writeDenied a) device

/-! ### Accesses of a program -/

def read (bus : Bus) (a : UInt32) : Except Fault UInt8 := do (← bus.reader a).read a

/-- The value of several bytes, in the byte order of the serving device. -/
def readWide (bus : Bus) (width : Width) (a : UInt32) : Except Fault Nat := do
  (← bus.reader a).readWide width a

def write (a : UInt32) (value : UInt8) : Faulting Bus Unit :=
  access a (ifWritable a (Device.write a value))

/-- Writes a value of several bytes, in the byte order of the serving device. -/
def writeWide (width : Width) (a : UInt32) (value : Nat) : Faulting Bus Unit :=
  access a (ifWritable a (Device.writeWide width a value))

/-- Writes bytes one after the other, up to the first that is refused. -/
def writeAll (stores : List (UInt32 × UInt8)) : Faulting Bus Unit :=
  stores.forM fun store ↦ write store.1 store.2

/-- The bytes a program sent to the port at an address; `none` where nothing is recorded. -/
def captured? (bus : Bus) (a : UInt32) : Option (List UInt8) :=
  (bus.serving? a).bind (·.captured? a)

/-! ### What only the host does -/

/-- Places bytes from `base` upwards, whether or not programs may write there. Every byte goes to
the device that serves its own address, so an image may span devices. -/
def load (base : UInt32) (bytes : List UInt8) : Faulting Bus Unit :=
  bytes.zipIdx.forM fun (byte, i) ↦ do
    let a ← Faulting.ofExcept (byteAddress base i)
    access a (Device.load a byte)

/-- The bus with one more device, which is asked last. -/
def attach (bus : Bus) (device : Device) : Bus :=
  { bus with devices := bus.devices ++ [device] }

/-- The device at a position, and the bus without it. -/
def detach (bus : Bus) (i : Nat) : Option Device × Bus :=
  (bus.devices[i]?, { bus with devices := bus.devices.eraseIdx i })

def clear (bus : Bus) : Bus := { bus with devices := [] }

/-! ### Text -/

/-- A range with its bounds in decimal. -/
def rangeText (range : AddressRange) : String :=
  "AddressRange \x7b low: " ++ Text.decimal range.low.toNat ++ ", high: "
    ++ Text.decimal range.high.toNat ++ " \x7d"

/-- The name of the bus and the ranges of its devices. -/
def text (bus : Bus) : String :=
  "Bus \x7b name: " ++ Text.quoted bus.name ++ ", devices: ["
    ++ ", ".intercalate (bus.devices.map fun device ↦ rangeText device.range) ++ "] \x7d"

end Bus

/-! ## Layouts -/

/-! ### Devices -/

/-- What kind of device a layout asks for. -/
inductive DeviceKind where
  /-- Bytes that programs read and write. -/
  | ram
  /-- Bytes that programs only read. -/
  | rom
  /-- Digits that programs read and write. -/
  | nibble
  /-- Ports. -/
  | portLatch
deriving DecidableEq, Repr

structure DeviceLayout where
  /-- The kind of device. -/
  kind : DeviceKind
  /-- One bound of its range. -/
  low : UInt32
  /-- The other bound of its range. -/
  high : UInt32
  /-- The byte order of wide accesses. -/
  order : ByteOrder := .little
deriving DecidableEq, Repr

namespace DeviceLayout

def range (layout : DeviceLayout) : AddressRange := .between layout.low layout.high

/-- The device as the layout describes it, with every cell zero. The order of a latch has no
effect. -/
def build (layout : DeviceLayout) : Device :=
  match layout.kind with
  | .ram => .store { range := layout.range, order := layout.order }
  | .rom => .store { range := layout.range, writable := false, order := layout.order }
  | .nibble => .store { range := layout.range, width := .nibble, order := layout.order }
  | .portLatch => .latch { range := layout.range }

end DeviceLayout

/-! ### Buses -/

/-- The devices of a bus, the first to be asked first. -/
structure BusLayout where
  /-- The devices. -/
  devices : List DeviceLayout
deriving DecidableEq, Repr

def BusLayout.build (layout : BusLayout) (name : String) : Bus :=
  { name, devices := layout.devices.map DeviceLayout.build }

/-- The port that receives the display address. -/
def addressPort : UInt32 := 0

/-- The port that receives display data and is read for input. -/
def dataPort : UInt32 := 1

/-- The stock memory: the system routines below program space, and memory for programs above. -/
def BusLayout.stockMemory : BusLayout :=
  ⟨[⟨.rom, 0, 0x1800, .little⟩, ⟨.ram, 0x1800, 0x10000, .little⟩]⟩

/-- The stock ports: one latch for the address port and the data port. -/
def BusLayout.stockPorts : BusLayout := ⟨[⟨.portLatch, addressPort, dataPort + 1, .little⟩]⟩

/-! ### Machines -/

structure MachineLayout where
  /-- The program counter after a reset. -/
  resetPc : UInt16 := stockResetPc
  /-- The stack pointer after a reset. -/
  resetSp : UInt16 := stockResetSp
  /-- The memory. -/
  memory : BusLayout := .stockMemory
  /-- The ports. -/
  ports : BusLayout := .stockPorts
deriving DecidableEq, Repr

end CalcWatch
