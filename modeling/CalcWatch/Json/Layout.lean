import CalcWatch.Bus
import CalcWatch.Json.Text

/-!
# JSON forms of layouts

A machine layout may leave out any of its fields, and what it leaves out is as in the stock machine.
A device has to say what it is and where it lies, and may leave out its byte order. The bounds of a
device are kept as they are given; those of a range are put in order. A latch has a byte order in
its layout like any other device, and whether it follows it is not for the form to say.
-/

namespace CalcWatch

open Json (fields? required defaulted choice?)
open JsonForm (encode decode?)

/-! ## Byte orders and ranges -/

def ByteOrder.stored : ByteOrder → String
  | little => "Little"
  | big => "Big"

instance : JsonForm ByteOrder where
  encode order := .text order.stored
  decode? := choice? [.little, .big] ByteOrder.stored

instance : JsonForm AddressRange where
  encode range := .record [("low", encode range.low), ("high", encode range.high)]
  decode? j := do
    match ← fields? ["low", "high"] j with
    | [low, high] => pure (.between (← required low) (← required high))
    | _ => none

/-! ## Layouts -/

def DeviceKind.stored : DeviceKind → String
  | ram => "ram"
  | rom => "rom"
  | nibble => "nibble"
  | portLatch => "port_latch"

instance : JsonForm DeviceKind where
  encode kind := .text kind.stored
  decode? := choice? [.ram, .rom, .nibble, .portLatch] DeviceKind.stored

instance : JsonForm DeviceLayout where
  encode layout :=
    .record
      [("kind", encode layout.kind), ("low", encode layout.low), ("high", encode layout.high),
       ("endianness", encode layout.order)]
  decode? j := do
    match ← fields? ["kind", "low", "high", "endianness"] j with
    | [kind, low, high, order] =>
      pure
        { kind := ← required kind, low := ← required low, high := ← required high,
          order := ← defaulted .little order }
    | _ => none

instance : JsonForm BusLayout where
  encode layout := .record [("devices", encode layout.devices)]
  decode? j := do
    match ← fields? ["devices"] j with
    | [devices] => pure { devices := ← required devices }
    | _ => none

instance : JsonForm MachineLayout where
  encode layout :=
    .record
      [("reset_pc", encode layout.resetPc), ("reset_sp", encode layout.resetSp),
       ("memory", encode layout.memory), ("io", encode layout.ports)]
  decode? j := do
    match ← fields? ["reset_pc", "reset_sp", "memory", "io"] j with
    | [pc, sp, memory, ports] =>
      pure
        { resetPc := ← defaulted stockResetPc pc, resetSp := ← defaulted stockResetSp sp,
          memory := ← defaulted .stockMemory memory, ports := ← defaulted .stockPorts ports }
    | _ => none

end CalcWatch
