import CalcWatch.Fault
import CalcWatch.Register

/-!
# Instructions

An instruction is a word of sixteen bits. A table says which of the fifty-seven forms it has, if
any, the form says how its operands are laid out, and the operands are read off the word. What the
watch does with them is then said by an operation, in which nothing of the word is left.

## Forms

Every form has a mnemonic and lays out its operands in one of a few ways. The layout is what a
listing shows.

## The opcode table

An opcode belongs to the first entry of the table whose fixed bits it shows. An opcode that belongs
to no entry is illegal. The entries are listed in opcode order; no two of them overlap, so the order
decides nothing but the listing.

## Fields

An instruction is a word together with the form it was classified as. Every field is a function of
the word alone, whatever the form: the forms overlay their fields, and it is for the reader of an
instruction to ask only for those its form has.

## Assembly text

A word as a line of assembly. The operands are written from the same fields that execution reads. A
word that is no instruction is listed as data, so every word has a row.

## Operations

The fifty-seven forms come down to a few kinds of operation: a sequence of assignments covers the
moves, shifts and clears, and a sequence of digit operations covers the windowed arithmetic and the
increments. Bits of the word that an operation does not mention have no effect.
-/

namespace CalcWatch

/-! ## Forms -/

/-- The forms of instruction, in the order of their opcodes. -/
inductive Form where
  | nop | ret | hlt
  | add | adb | sub | sbb | adm | adbm | sbm | sbbm
  | cmp | cpm | mov | movm | cpi | ldi
  | lcrb | larb
  | adi | adbi | sbi | sbbi | andi | ori | xori
  | inc | incb | dec | decb
  | rshm | lshm | clrm | mvac | mvacm | mvca | mvcam
  | cpfjr | ijmr | cpjr | btjr
  | call | jmp | jz | jnz | jc | jnc
  | psam | plam | ldsm | stsm | stlm | stl | psai | plai | stli | inp
deriving DecidableEq, Repr

/-- How the operand bits of an instruction are laid out. -/
inductive Shape where
  /-- No operands. -/
  | bare
  /-- Two registers. -/
  | pair
  /-- Two registers that span a window. -/
  | window
  /-- A register and a four-bit immediate. -/
  | regImmediate
  /-- A bank number. -/
  | bank
  /-- A window inside an aligned group of eight registers. -/
  | groupWindow
  /-- A register and a signed offset in words. -/
  | regOffset
  /-- A register. -/
  | reg
  /-- A bit number, a register and a signed offset in words. -/
  | bitRegOffset
  /-- An address in the lowest eight kilobytes. -/
  | target12
  /-- An address in the first two kilobytes of program space. -/
  | target10
  /-- A ten-bit immediate. -/
  | immediate10
  /-- An eight-bit immediate. -/
  | immediate8
deriving DecidableEq, Repr

namespace Form

def mnemonic : Form → String
  | nop => "NOP" | ret => "RET" | hlt => "HLT"
  | add => "ADD" | adb => "ADB" | sub => "SUB" | sbb => "SBB"
  | adm => "ADM" | adbm => "ADBM" | sbm => "SBM" | sbbm => "SBBM"
  | cmp => "CMP" | cpm => "CPM" | mov => "MOV" | movm => "MOVM" | cpi => "CPI" | ldi => "LDI"
  | lcrb => "LCRB" | larb => "LARB"
  | adi => "ADI" | adbi => "ADBI" | sbi => "SBI" | sbbi => "SBBI"
  | andi => "ANDI" | ori => "ORI" | xori => "XORI"
  | inc => "INC" | incb => "INCB" | dec => "DEC" | decb => "DECB"
  | rshm => "RSHM" | lshm => "LSHM" | clrm => "CLRM"
  | mvac => "MVAC" | mvacm => "MVACM" | mvca => "MVCA" | mvcam => "MVCAM"
  | cpfjr => "CPFJR" | ijmr => "IJMR" | cpjr => "CPJR" | btjr => "BTJR"
  | call => "CALL" | jmp => "JMP" | jz => "JZ" | jnz => "JNZ" | jc => "JC" | jnc => "JNC"
  | psam => "PSAM" | plam => "PLAM" | ldsm => "LDSM" | stsm => "STSM" | stlm => "STLM"
  | stl => "STL" | psai => "PSAI" | plai => "PLAI" | stli => "STLI" | inp => "IN"

def shape : Form → Shape
  | nop | ret | hlt => .bare
  | add | adb | sub | sbb | cmp | mov | mvac | mvca | stl | inp => .pair
  | adm | adbm | sbm | sbbm | cpm | movm | rshm | lshm | clrm | mvacm | mvcam
  | psam | plam | ldsm | stsm | stlm => .window
  | cpi | ldi | adi | adbi | sbi | sbbi | andi | ori | xori => .regImmediate
  | lcrb | larb => .bank
  | inc | incb | dec | decb => .groupWindow
  | cpfjr | cpjr => .regOffset
  | ijmr => .reg
  | btjr => .bitRegOffset
  | call | jmp => .target12
  | jz | jnz | jc | jnc => .target10
  | psai | plai => .immediate10
  | stli => .immediate8

end Form

/-! ## The opcode table -/

/-- The fixed bits of one form. -/
structure OpcodeEntry where
  /-- Which bits are fixed. -/
  mask : UInt16
  /-- The values of the fixed bits. -/
  value : UInt16
  /-- The form they mark. -/
  form : Form
deriving DecidableEq, Repr

/-- Whether a word shows the fixed bits of an entry. -/
def OpcodeEntry.covers (entry : OpcodeEntry) (word : UInt16) : Bool :=
  word &&& entry.mask == entry.value

/-- Every form with its fixed bits. -/
def opcodeTable : List OpcodeEntry :=
  [⟨0xFFFF, 0x0000, .nop⟩, ⟨0xFFFF, 0x0001, .ret⟩, ⟨0xFFFF, 0x0002, .hlt⟩,
   ⟨0xFC00, 0x0400, .add⟩, ⟨0xFC00, 0x0800, .adb⟩, ⟨0xFC00, 0x0C00, .sub⟩,
   ⟨0xFC00, 0x1000, .sbb⟩, ⟨0xFC00, 0x1400, .adm⟩, ⟨0xFC00, 0x1800, .adbm⟩,
   ⟨0xFC00, 0x1C00, .sbm⟩, ⟨0xFC00, 0x2000, .sbbm⟩, ⟨0xFC00, 0x2400, .cmp⟩,
   ⟨0xFC00, 0x2800, .cpm⟩, ⟨0xFC00, 0x2C00, .mov⟩, ⟨0xFC00, 0x3000, .movm⟩,
   ⟨0xFC00, 0x3400, .cpi⟩, ⟨0xFC00, 0x3800, .ldi⟩, ⟨0xFFFC, 0x3C00, .lcrb⟩,
   ⟨0xFFFC, 0x3E00, .larb⟩, ⟨0xFC00, 0x4000, .adi⟩, ⟨0xFC00, 0x4400, .adbi⟩,
   ⟨0xFC00, 0x4800, .sbi⟩, ⟨0xFC00, 0x4C00, .sbbi⟩, ⟨0xFC00, 0x5000, .andi⟩,
   ⟨0xFC00, 0x5400, .ori⟩, ⟨0xFC00, 0x5800, .xori⟩, ⟨0xFC18, 0x5C00, .inc⟩,
   ⟨0xFC18, 0x5C08, .incb⟩, ⟨0xFC18, 0x5C10, .dec⟩, ⟨0xFC18, 0x5C18, .decb⟩,
   ⟨0xFC00, 0x6000, .rshm⟩, ⟨0xFC00, 0x6400, .lshm⟩, ⟨0xFC00, 0x6800, .clrm⟩,
   ⟨0xFC00, 0x6C00, .mvac⟩, ⟨0xFC00, 0x7000, .mvacm⟩, ⟨0xFC00, 0x7400, .mvca⟩,
   ⟨0xFC00, 0x7800, .mvcam⟩, ⟨0xFC00, 0x8000, .cpfjr⟩, ⟨0xFC00, 0x8400, .ijmr⟩,
   ⟨0xF800, 0x8800, .cpjr⟩, ⟨0xF000, 0x9000, .btjr⟩, ⟨0xF000, 0xA000, .call⟩,
   ⟨0xF000, 0xB000, .jmp⟩, ⟨0xFC00, 0xC000, .jz⟩, ⟨0xFC00, 0xC400, .jnz⟩,
   ⟨0xFC00, 0xC800, .jc⟩, ⟨0xFC00, 0xCC00, .jnc⟩, ⟨0xFC00, 0xD000, .psam⟩,
   ⟨0xFC00, 0xD400, .plam⟩, ⟨0xFC00, 0xD800, .ldsm⟩, ⟨0xFC00, 0xDC00, .stsm⟩,
   ⟨0xFC00, 0xE000, .stlm⟩, ⟨0xFC00, 0xE400, .stl⟩, ⟨0xFC00, 0xE800, .psai⟩,
   ⟨0xFC00, 0xEC00, .plai⟩, ⟨0xFF00, 0xF000, .stli⟩, ⟨0xFC00, 0xF400, .inp⟩]

/-- The form of a word, if it is an instruction at all. -/
def Form.ofWord? (word : UInt16) : Option Form :=
  (opcodeTable.find? (·.covers word)).map (·.form)

/-! ## Fields -/

/-- The bytes of every instruction. -/
def instructionBytes : UInt8 := 2

/-- Where program space begins; conditional jumps and the address immediates count from here. -/
def programSpace : UInt16 := 0x1800

/-- The number in the low `bits` bits of a byte, read as two's complement. -/
def signExtend (value : UInt8) (bits : Nat) : Int8 :=
  let unused := UInt8.ofNat (8 - bits)
  (value <<< unused).toInt8 >>> unused.toInt8

/-- A classified word. -/
structure Instruction where
  /-- The word. -/
  word : UInt16
  /-- Its form. -/
  form : Form
deriving DecidableEq, Repr

namespace Instruction

/-- Classifies a word; one that no entry of the table covers is illegal. -/
def decode (word : UInt16) : Except Fault Instruction :=
  match Form.ofWord? word with
  | some form => .ok ⟨word, form⟩
  | none => .error (.illegalOpcode word)

theorem word_eq_of_decode {word : UInt16} {inst : Instruction} (h : decode word = .ok inst) :
    inst.word = word := by
  rw [decode] at h
  split at h
  · cases h
    rfl
  · cases h

theorem eq_illegalOpcode_of_decode {word : UInt16} {f : Fault} (h : decode word = .error f) :
    f = .illegalOpcode word := by
  rw [decode] at h
  split at h
  · cases h
  · cases h
    rfl

theorem covers_eq_false_of_decode {word : UInt16} {f : Fault} (h : decode word = .error f)
    {entry : OpcodeEntry} (hentry : entry ∈ opcodeTable) : entry.covers word = false := by
  cases hform : Form.ofWord? word with
  | some form =>
    rw [decode, hform] at h
    cases h
  | none =>
    rw [Form.ofWord?, Option.map_eq_none_iff, List.find?_eq_none] at hform
    exact Bool.eq_false_iff.mpr (hform entry hentry)

variable (inst : Instruction)

/-! ### Registers and windows -/

/-- The destination register, bits 9 to 5. -/
def d : Reg := Reg.ofByte (inst.word >>> 5).toUInt8

/-- The source register, bits 4 to 0. -/
def s : Reg := Reg.ofByte inst.word.toUInt8

/-- How far a window reaches beyond its first register: the distance from `d` up to `s`, modulo
eight. -/
def windowExtent : UInt8 := (inst.s.number - inst.d.number) &&& 0x07

/-- The window that begins at `d`. -/
def destination : Window := ⟨inst.d, inst.windowExtent.toNat + 1⟩

/-- The window of the same length that ends at `s`. -/
def source : Window := ⟨inst.s.down inst.windowExtent, inst.windowExtent.toNat + 1⟩

/-- The lowest register of the group window: the low three bits of the word, in the group of `d`. -/
def groupLow : Reg := Reg.ofByte ((inst.d.number &&& 0x18) ||| (inst.word.toUInt8 &&& 0x07))

/-- The number of registers in the group window. -/
def groupLength : UInt8 := ((inst.d.number - inst.groupLow.number) &&& 0x07) + 1

/-- Register `i` of the group window. The window turns round inside its group of eight, so it always
ends at `d`. -/
def groupReg (i : UInt8) : Reg :=
  Reg.ofByte ((inst.d.number &&& 0x18) ||| ((inst.groupLow.number + i) &&& 0x07))

/-- The registers of the group window from the least significant digit up. -/
def groupRegisters : List Reg :=
  (List.range inst.groupLength.toNat).map fun i ↦ inst.groupReg (UInt8.ofNat i)

/-! ### Immediates, offsets and targets -/

/-- The four-bit immediate, bits 4 to 1. -/
def immediate4 : UInt8 := ((inst.word >>> 1) &&& 0x0F).toUInt8

/-- The bank number, bits 1 and 0. -/
def bankBits : UInt8 := (inst.word &&& 0x03).toUInt8

/-- The signed offset in words, bits 4 to 0. -/
def offset5 : Int8 := signExtend (inst.word.toUInt8 &&& 0x1F) 5

/-- The number of the bit a bit test looks at, bits 11 and 10. -/
def bitIndex : UInt8 := ((inst.word >>> 10) &&& 0x03).toUInt8

/-- Whether a zero test jumps when the register is not zero, bit 10. -/
def jumpsOnNonzero : Bool := inst.word &&& 0x0400 != 0

/-- The byte address in bits 11 to 0. -/
def target12 : UInt16 := (inst.word &&& 0x0FFF) <<< 1

/-- The byte address in program space in bits 9 to 0. -/
def target10 : UInt16 := programSpace + ((inst.word &&& 0x03FF) <<< 1)

/-- The ten-bit immediate, bits 9 to 0. -/
def immediate10 : UInt16 := inst.word &&& 0x03FF

/-- The eight-bit immediate, bits 7 to 0. -/
def immediate8 : UInt8 := inst.word.toUInt8

end Instruction

/-! ## Assembly text -/

/-- One line of a listing. -/
structure Row where
  /-- The address of the word. -/
  address : UInt16
  /-- The length in bytes. -/
  length : UInt8
  /-- The word. -/
  word : UInt16
  /-- The mnemonic, or the data directive. -/
  mnemonic : String
  /-- The operands, or the word in hexadecimal. -/
  operands : String
  /-- Whether the word is no instruction. -/
  illegal : Bool
deriving DecidableEq, Repr

/-! ### Operands -/

/-- A register as an operand. -/
def Reg.text (r : Reg) : String := "R" ++ Text.decimal r.number.toNat

/-- The operands of an instruction, laid out as its form has them. -/
def Instruction.operandText (inst : Instruction) : String :=
  match inst.form.shape with
  | .bare => ""
  | .pair | .window => inst.d.text ++ ", " ++ inst.s.text
  | .regImmediate => inst.d.text ++ ", #0x" ++ Text.hex 1 inst.immediate4.toNat
  | .bank => "#" ++ Text.decimal inst.bankBits.toNat
  | .groupWindow => inst.groupLow.text ++ ".." ++ inst.d.text
  | .regOffset => inst.d.text ++ ", " ++ Text.explicitlySigned inst.offset5.toInt
  | .reg => inst.d.text
  | .bitRegOffset =>
    Text.decimal inst.bitIndex.toNat ++ ", " ++ inst.d.text ++ ", "
      ++ Text.explicitlySigned inst.offset5.toInt
  | .target12 => Text.address inst.target12.toNat
  | .target10 => Text.address inst.target10.toNat
  | .immediate10 => "#0x" ++ Text.hex 3 inst.immediate10.toNat
  | .immediate8 => "#0x" ++ Text.hex 2 inst.immediate8.toNat

/-! ### Rows -/

namespace Row

/-- The row of a word found at an address. -/
def ofWord (address word : UInt16) : Row :=
  match Instruction.decode word with
  | .ok inst => ⟨address, instructionBytes, word, inst.form.mnemonic, inst.operandText, false⟩
  | .error _ => ⟨address, instructionBytes, word, ".word", Text.address word.toNat, true⟩

/-- Mnemonic and operands on one line. -/
def text (row : Row) : String :=
  if row.operands = "" then row.mnemonic else row.mnemonic ++ " " ++ row.operands

end Row

def disassemble (word : UInt16) : String := (Row.ofWord 0 word).text

/-! ## Operations -/

/-! ### Parts of operations -/

/-- The two banks an instruction can address. -/
inductive BankRole where
  /-- The bank of the register fields. -/
  | current
  /-- The other bank of the cross-bank moves. -/
  | additional
deriving DecidableEq, Repr

/-- An operation on the bits of a digit. -/
inductive BitwiseOp where
  | and | or | xor
deriving DecidableEq, Repr

def BitwiseOp.apply : BitwiseOp → UInt8 → UInt8 → UInt8
  | and, a, b => a &&& b
  | or, a, b => a ||| b
  | xor, a, b => a ^^^ b

/-- A question about the value of a register. -/
inductive Condition where
  /-- Is it fifteen? -/
  | full
  /-- Is it zero? -/
  | zero
  /-- Is it anything but zero? -/
  | nonzero
  /-- Is the bit with this number set? -/
  | bit (number : UInt8)
deriving DecidableEq, Repr

def Condition.holds : Condition → UInt8 → Bool
  | full, value => value == 0x0F
  | zero, value => value == 0
  | nonzero, value => value != 0
  | bit number, value => value &&& (1 <<< number) != 0

/-- What is sent to the data port. -/
inductive Payload where
  /-- The registers of a window, most significant digit first, two to a byte. -/
  | window (w : Window)
  /-- Two registers in one byte. -/
  | pair (high low : Reg)
  /-- The byte itself. -/
  | byte (value : UInt8)
deriving DecidableEq, Repr

/-! ### Operations -/

/-- What an instruction does. -/
inductive Operation where
  /-- Nothing. -/
  | idle
  /-- Combines a register with an operand. -/
  | combine (op : DigitOp) (step : Assignment)
  /-- Combines registers with operands, least significant digit first. -/
  | ripple (op : DigitOp) (carry : Bool) (steps : List Assignment)
  /-- Compares a register with an operand. -/
  | compare (r : Reg) (operand : Operand)
  /-- Compares registers pair by pair, most significant digit first. -/
  | comparePairs (pairs : List (Reg × Reg))
  /-- Combines the bits of a register with a value. -/
  | bitwise (op : BitwiseOp) (r : Reg) (value : UInt8)
  /-- Stores operands from one bank in registers of another, or of the same. -/
  | assign (dst src : BankRole) (steps : List Assignment)
  /-- Chooses a bank. -/
  | selectBank (role : BankRole) (bank : Bank)
  /-- Jumps by a number of words if a register meets a condition. -/
  | branch (condition : Condition) (r : Reg) (words : Int8)
  /-- Jumps by the number of words in a register, read as two's complement. -/
  | branchBy (r : Reg)
  /-- Calls a routine. -/
  | call (target : UInt16)
  /-- Jumps. -/
  | jump (target : UInt16)
  /-- Jumps if a flag has a value. -/
  | jumpIf (flag : Flag) (value : Bool) (target : UInt16)
  /-- Returns from a routine. -/
  | ret
  /-- Returns from an interrupt routine. -/
  | halt
  /-- Stores a window in memory. -/
  | store (w : Window) (advance : Bool)
  /-- Loads a window from memory. -/
  | load (w : Window) (advance : Bool)
  /-- Sends something to the data port. -/
  | send (payload : Payload)
  /-- Sets the address of the window transfers. -/
  | pointMemory (a : UInt16)
  /-- Sets the display address and sends it to the address port. -/
  | pointDisplay (a : UInt16)
  /-- Splits a byte from the data port into two registers. -/
  | receive (high low : Reg)
deriving DecidableEq, Repr

/-! ### Windows as sequences of steps -/

namespace Window

/-- Every register with the register of another window in the same place. -/
def zipWith (w other : Window) : List Assignment :=
  (List.range w.length).map fun i ↦ ⟨w.reg i, .register (other.reg i)⟩

/-- Every register with the registers from `r` downwards. -/
def zipDown (w : Window) (r : Reg) : List Assignment :=
  (List.range w.length).map fun i ↦ ⟨w.reg i, .register (r.down (UInt8.ofNat i))⟩

/-- Every register takes the value of the one below, from the top down, and the first becomes
zero. -/
def shiftUp (w : Window) : List Assignment :=
  (List.range (w.length - 1)).reverse.map (fun i ↦ ⟨w.reg (i + 1), .register (w.reg i)⟩)
    ++ [⟨w.first, .immediate 0⟩]

/-- Every register takes the value of the one above, from the bottom up, and the last becomes
zero. -/
def shiftDown (w : Window) : List Assignment :=
  (List.range (w.length - 1)).map (fun i ↦ ⟨w.reg i, .register (w.reg (i + 1))⟩)
    ++ [⟨w.top, .immediate 0⟩]

def clear (w : Window) : List Assignment := w.registers.map fun r ↦ ⟨r, .immediate 0⟩

/-- The registers of two windows side by side, the most significant first. -/
def pairsFromTop (w other : Window) : List (Reg × Reg) :=
  (List.range w.length).reverse.map fun i ↦ (w.reg i, other.reg i)

end Window

/-! ### From instructions to operations -/

namespace Instruction

variable (inst : Instruction)

/-- The step that combines the destination register with the source register. -/
def registerStep : Assignment := ⟨inst.d, .register inst.s⟩

/-- The step that combines the destination register with the immediate. -/
def immediateStep : Assignment := ⟨inst.d, .immediate inst.immediate4⟩

/-- The steps of the group window: nothing is added, the carry does the work. -/
def groupSteps : List Assignment := inst.groupRegisters.map fun r ↦ ⟨r, .immediate 0⟩

/-- What the instruction does. -/
def operation : Operation :=
  match inst.form with
  | .nop => .idle
  | .ret => .ret
  | .hlt => .halt
  | .add => .combine .add inst.registerStep
  | .adb => .combine .addDecimal inst.registerStep
  | .sub => .combine .sub inst.registerStep
  | .sbb => .combine .subDecimal inst.registerStep
  | .adm => .ripple .add false (inst.destination.zipWith inst.source)
  | .adbm => .ripple .addDecimal false (inst.destination.zipWith inst.source)
  | .sbm => .ripple .sub false (inst.destination.zipWith inst.source)
  | .sbbm => .ripple .subDecimal false (inst.destination.zipWith inst.source)
  | .cmp => .compare inst.d (.register inst.s)
  | .cpm => .comparePairs (inst.destination.pairsFromTop inst.source)
  | .mov => .assign .current .current [inst.registerStep]
  | .movm => .assign .current .current (inst.destination.zipDown inst.source.first)
  | .cpi => .compare inst.d (.immediate inst.immediate4)
  | .ldi => .assign .current .current [inst.immediateStep]
  | .lcrb => .selectBank .current (.ofByte inst.bankBits)
  | .larb => .selectBank .additional (.ofByte inst.bankBits)
  | .adi => .combine .add inst.immediateStep
  | .adbi => .combine .addDecimal inst.immediateStep
  | .sbi => .combine .sub inst.immediateStep
  | .sbbi => .combine .subDecimal inst.immediateStep
  | .andi => .bitwise .and inst.d inst.immediate4
  | .ori => .bitwise .or inst.d inst.immediate4
  | .xori => .bitwise .xor inst.d inst.immediate4
  | .inc => .ripple .add true inst.groupSteps
  | .incb => .ripple .addDecimal true inst.groupSteps
  | .dec => .ripple .sub true inst.groupSteps
  | .decb => .ripple .subDecimal true inst.groupSteps
  | .rshm => .assign .current .current inst.destination.shiftUp
  | .lshm => .assign .current .current inst.destination.shiftDown
  | .clrm => .assign .current .current inst.destination.clear
  | .mvac => .assign .current .additional [inst.registerStep]
  | .mvacm => .assign .current .additional (inst.destination.zipWith inst.destination)
  | .mvca => .assign .additional .current [inst.registerStep]
  | .mvcam => .assign .additional .current (inst.destination.zipWith inst.destination)
  | .cpfjr => .branch .full inst.d inst.offset5
  | .ijmr => .branchBy inst.d
  | .cpjr => .branch (if inst.jumpsOnNonzero then .nonzero else .zero) inst.d inst.offset5
  | .btjr => .branch (.bit inst.bitIndex) inst.d inst.offset5
  | .call => .call inst.target12
  | .jmp => .jump inst.target12
  | .jz => .jumpIf .zero true inst.target10
  | .jnz => .jumpIf .zero false inst.target10
  | .jc => .jumpIf .carry true inst.target10
  | .jnc => .jumpIf .carry false inst.target10
  | .psam => .store inst.destination true
  | .plam => .load inst.destination true
  | .ldsm => .load inst.destination false
  | .stsm => .store inst.destination false
  | .stlm => .send (.window inst.destination)
  | .stl => .send (.pair inst.d inst.s)
  | .psai => .pointMemory (programSpace + inst.immediate10)
  | .plai => .pointDisplay inst.immediate10
  | .stli => .send (.byte inst.immediate8)
  | .inp => .receive inst.d inst.s

end Instruction

end CalcWatch
