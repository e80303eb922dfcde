import CalcWatch.Machine

/-!
# Inspection

What a debugger sees and changes. A value that does not belong in a register is refused rather than
cut to size, and looking never changes the machine.

## Register names

Debuggers address registers by name. A cell is `R`, the letter of its bank and its number, and the
control registers have names of one or two letters. Every register has exactly one name: case
matters, and a number has no superfluous zero.

## Looking at a machine

A debugger reads and writes registers by name, asks for the instruction at an address, and lists the
memory around one.
-/

namespace CalcWatch

/-! ## Register names -/

inductive RegisterName where
  /-- A cell of a bank. -/
  | cell (bank : Bank) (r : Reg)
  /-- The program counter. -/
  | pc
  /-- The flags. -/
  | flags
  /-- The current bank. -/
  | currentBank
  /-- The additional bank. -/
  | additionalBank
  /-- The address of the window transfers. -/
  | sa
  /-- The stack pointer. -/
  | sp
deriving DecidableEq, Repr

namespace RegisterName

def controls : List RegisterName := [pc, flags, currentBank, additionalBank, sa, sp]

/-- Every name: the cells bank by bank, then the control registers. -/
def all : List RegisterName :=
  (Bank.all.flatMap fun bank ↦
    (List.range 32).map fun i ↦ cell bank ⟨UInt8.ofNat i⟩) ++ controls

/-! ### Text -/

def chars : RegisterName → List Char
  | cell bank r => 'R' :: bank.letter :: (Text.decimal r.number.toNat).toList
  | pc => ['P', 'C']
  | flags => ['F']
  | currentBank => ['C', 'B']
  | additionalBank => ['A', 'B']
  | sa => ['S', 'A']
  | sp => ['S', 'P']

def text (name : RegisterName) : String := String.ofList name.chars

/-- The register with a number of one or two digits, the first of two not zero. -/
def reg? : List Char → Option Reg
  | [c] => (Text.digitIn? 10 c).map fun n ↦ ⟨UInt8.ofNat n⟩
  | [c₁, c₂] => do
    let tens ← Text.digitIn? 10 c₁
    let units ← Text.digitIn? 10 c₂
    if tens ≠ 0 ∧ 10 * tens + units < 32 then some ⟨UInt8.ofNat (10 * tens + units)⟩ else none
  | _ => none

/-- The register that a list of characters names. -/
def ofChars? : List Char → Option RegisterName
  | ['P', 'C'] => some pc
  | ['F'] => some flags
  | ['C', 'B'] => some currentBank
  | ['A', 'B'] => some additionalBank
  | ['S', 'A'] => some sa
  | ['S', 'P'] => some sp
  | 'R' :: letter :: digits => do
    let bank ← Bank.ofLetter? letter
    let r ← reg? digits
    pure (cell bank r)
  | _ => none

/-- The register that a text names. -/
def parse (name : String) : Except Fault RegisterName :=
  match ofChars? name.toList with
  | some register => .ok register
  | none => .error (.illegalRegisterName name)

/-! ### Values -/

/-- The width in bits that debuggers are told. -/
def width : RegisterName → UInt8
  | pc | sa => 16
  | cell _ _ | flags | currentBank | additionalBank | sp => 4

/-- The least value that may be stored under the name; a cell also takes negative digits. -/
def least : RegisterName → Int32
  | cell _ _ => -8
  | pc | flags | currentBank | additionalBank | sa | sp => 0

/-- The greatest value that may be stored under the name. -/
def greatest : RegisterName → Int32
  | cell _ _ => 15
  | pc | sa | sp => 0xFFFF
  | flags => 0xFF
  | currentBank | additionalBank => 3

def accepts (name : RegisterName) (value : Int32) : Bool :=
  name.least ≤ value && value ≤ name.greatest

end RegisterName

/-! ## Looking at a machine -/

namespace Machine

/-! ### Registers by name -/

def readRegister (m : Machine) : RegisterName → UInt16
  | .cell bank r => (m.registers.get bank r).toUInt16
  | .pc => m.control.pc
  | .flags => m.control.flags.toUInt16
  | .currentBank => m.control.currentBank.number.toUInt16
  | .additionalBank => m.control.additionalBank.number.toUInt16
  | .sa => m.control.sa
  | .sp => m.control.sp

/-- The machine with a value in a register; of a wider value the low bits are kept. -/
def writeRegister (m : Machine) (name : RegisterName) (value : UInt16) : Machine :=
  match name with
  | .cell bank r => { m with registers := m.registers.set bank r value.toUInt8 }
  | .pc => { m with control := { m.control with pc := value } }
  | .flags => { m with control := { m.control with flags := value.toUInt8 } }
  | .currentBank => { m with control := { m.control with currentBank := .ofByte value.toUInt8 } }
  | .additionalBank =>
    { m with control := { m.control with additionalBank := .ofByte value.toUInt8 } }
  | .sa => { m with control := { m.control with sa := value } }
  | .sp => { m with control := { m.control with sp := value } }

def registerValue (m : Machine) (name : String) : Except Fault UInt16 := do
  pure (m.readRegister (← RegisterName.parse name))

/-- Stores a value in the register with a name, if the register accepts it. -/
def setRegisterValue (name : String) (value : Int32) : Faulting Machine Unit := do
  let register ← Faulting.ofExcept (RegisterName.parse name)
  if register.accepts value then
    Faulting.update (·.writeRegister register value.toInt16.toUInt16)
  else
    throw (.illegalRegisterValue name value)

/-! ### Instructions by address -/

/-- The text and the length of the instruction at an address. -/
def decodeAt (m : Machine) (a : UInt16) : Except Fault (String × UInt8) := do
  let word ← m.fetch a
  let _ ← Instruction.decode word
  let row := Row.ofWord a word
  pure (row.text, row.length)

/-- The row of the word at an address, if it can be fetched. -/
def rowAt? (m : Machine) (a : UInt16) : Option Row :=
  match m.fetch a with
  | .ok word => some (.ofWord a word)
  | .error _ => none

/-- The address of row `i` of a listing that begins `before` instructions ahead of `center`. -/
def rowAddress (center before : UInt16) (i : Nat) : UInt16 :=
  center - before * instructionBytes.toUInt16 + UInt16.ofNat i * instructionBytes.toUInt16

/-- The number of rows that a listing asks for: those before the center, the center and those after
it, but no more than there are sixteen-bit numbers. -/
def rowCount (before after : UInt16) : Nat := min (before.toNat + after.toNat + 1) 0x10000

/-- A listing. What cannot be fetched is left out. -/
def listing (m : Machine) (center before after : UInt16) : List Row :=
  (List.range (rowCount before after)).filterMap fun i ↦ m.rowAt? (rowAddress center before i)

end Machine

end CalcWatch
