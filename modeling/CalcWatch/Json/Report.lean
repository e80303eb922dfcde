import CalcWatch.Json.Text
import CalcWatch.Machine

/-!
# JSON forms of what a machine reports

Faults, interrupts and the lines of a listing. A fault is stored as one member, named for its cause,
that holds what the cause carries: a word or a name by itself, and anything else as an object of
named fields. An interrupt source is stored as its name. A line of a listing and the state of the
controller are stored as objects, with a field for each of their parts.
-/

namespace CalcWatch

open Json (fields? required choice?)
open JsonForm (encode decode?)

/-! ## Faults -/

def FaultClass.stored : FaultClass → String
  | bus => "Bus"
  | decode => "Decode"
  | introspection => "Introspection"

instance : JsonForm FaultClass where
  encode layer := .text layer.stored
  decode? := choice? [.bus, .decode, .introspection] FaultClass.stored

/-- The name under which the cause of a fault is stored. -/
def Fault.stored : Fault → String
  | unmappedAddress _ => "UnmappedAddress"
  | outOfRangeValue _ _ => "OutOfRangeValue"
  | readDenied _ => "ReadDenied"
  | writeDenied _ => "WriteDenied"
  | illegalOpcode _ => "IllegalOpcode"
  | illegalRegisterName _ => "IllegalRegisterName"
  | illegalRegisterValue _ _ => "IllegalRegisterValue"

/-- What the cause of a fault carries. -/
def Fault.storedDetail : Fault → Json
  | unmappedAddress a | readDenied a | writeDenied a => .record [("addr", encode a)]
  | outOfRangeValue a v => .record [("addr", encode a), ("value", encode v)]
  | illegalOpcode word => encode word
  | illegalRegisterName name => encode name
  | illegalRegisterValue name v => .record [("name", encode name), ("value", encode v)]

/-- An address that stands alone in a structure. -/
def storedAddress? (j : Json) : Option UInt32 := do
  match ← fields? ["addr"] j with
  | [a] => required a
  | _ => none

/-- The fault with a stored cause and what it carries. -/
def Fault.ofStored? (cause : String) (detail : Json) : Option Fault :=
  match cause with
  | "UnmappedAddress" => (storedAddress? detail).map unmappedAddress
  | "ReadDenied" => (storedAddress? detail).map readDenied
  | "WriteDenied" => (storedAddress? detail).map writeDenied
  | "OutOfRangeValue" => do
    match ← fields? ["addr", "value"] detail with
    | [a, v] => pure (outOfRangeValue (← required a) (← required v))
    | _ => none
  | "IllegalOpcode" => (decode? detail).map illegalOpcode
  | "IllegalRegisterName" => (decode? detail).map illegalRegisterName
  | "IllegalRegisterValue" => do
    match ← fields? ["name", "value"] detail with
    | [name, v] => pure (illegalRegisterValue (← required name) (← required v))
    | _ => none
  | _ => none

instance : JsonForm Fault where
  encode fault := .record [(fault.stored, fault.storedDetail)]
  decode?
    | .object [(some cause, detail)] => Fault.ofStored? cause detail
    | _ => none

/-! ## Interrupts -/

def InterruptSource.stored : InterruptSource → String
  | secondTimer => "SecondTimer"
  | redrawScreen => "RedrawScreen"
  | setButton => "SetButton"
  | modeButton => "ModeButton"
  | transmitButton => "TransmitButton"
  | selectButton => "SelectButton"

instance : JsonForm InterruptSource where
  encode source := .text source.stored
  decode? := choice? InterruptSource.all InterruptSource.stored

instance : JsonForm InterruptController where
  encode controller :=
    .record [("pending", encode controller.pending), ("servicing", encode controller.servicing)]
  decode? j := do
    match ← fields? ["pending", "servicing"] j with
    | [pending, servicing] =>
      pure { pending := ← required pending, servicing := ← required servicing }
    | _ => none

/-! ## Listings -/

instance : JsonForm Row where
  encode row :=
    .record
      [("addr_start", encode row.address), ("len_bytes", encode row.length),
       ("raw_word", encode row.word), ("mnemonic", encode row.mnemonic),
       ("operands", encode row.operands), ("is_illegal", encode row.illegal)]
  decode? j := do
    match ← fields?
        ["addr_start", "len_bytes", "raw_word", "mnemonic", "operands", "is_illegal"] j with
    | [address, length, word, mnemonic, operands, illegal] =>
      pure
        { address := ← required address, length := ← required length, word := ← required word,
          mnemonic := ← required mnemonic, operands := ← required operands,
          illegal := ← required illegal }
    | _ => none

end CalcWatch
