/-!
# Digits and registers

The watch computes with digits of four bits. They are kept in banks of registers, combined one at a
time with a carry, and packed two to a byte where they travel.

## One digit

Adding and subtracting a digit with a carry, in sixteen or in ten. The intermediate result is a
whole byte, so a subtraction that goes below zero wraps round; the decimal forms then move a result
above nine by six, and bit four of what is left is the carry.

## Two digits in a byte

Windows travel to memory and to the display as bytes of two digits, the more significant one high.

## Selectors

A register cell is picked by a bank, one of four, and a register number, one of thirty-two. Both
selectors are carried as a byte. `Bank.ofByte` and `Reg.ofByte` keep the bits that matter, and every
selector of an instruction, of a register name and of the host's own accesses comes from them.

It is a precondition of every lookup that the selectors are in range. A lookup by a number out of
range is the end of the program, and this is not modelled: `slot` is total so that a lookup is a
plain function, and what it makes of such a number means nothing. The number can only come from a
stored machine, since reading one does not mask it. `RegisterFile.getElem?_banks` says that a lookup
in range is a lookup by the bare numbers, `RegisterFile.getElem?_banks_eq_none` that there is
nothing to be found outside, and `Machine.Obtainable` which machines never ask for it.

## Windows

A window is a run of neighbouring registers that an instruction treats as one number, least
significant digit in its first register. After the last register of a bank a window goes on at the
first. Two digits travel in a byte, so a window of odd length fills its last byte by half.

## The register file

Four banks of thirty-two nibble registers. A store keeps the low four bits of what it is given, so a
machine that starts from a clear file never holds anything but nibbles; a file read from a stored
machine is taken as it is.

## Control registers and flags

The registers outside the banks. The flags byte has two flags; its other six bits are carried along
and no instruction touches them. An instruction says which flags it sets with a `FlagUpdate`, which
is applied only once the instruction has completed.

## Sequences of register steps

Instructions that touch several registers do so one register after the other, and every step sees
what the steps before it have stored. They are therefore lists of single steps that are folded over
the register file: assignments, digit operations that hand on a carry, and comparisons.
-/

namespace CalcWatch

/-! ## One digit -/

/-- An operation on one digit and a carry. -/
inductive DigitOp where
  /-- Addition in sixteen. -/
  | add
  /-- Addition in ten. -/
  | addDecimal
  /-- Subtraction in sixteen. -/
  | sub
  /-- Subtraction in ten. -/
  | subDecimal
deriving DecidableEq, Repr

namespace DigitOp

def subtracts : DigitOp → Bool
  | add | addDecimal => false
  | sub | subDecimal => true

/-- The sum or difference before any correction. -/
def intermediate (op : DigitOp) (a b : UInt8) (carry : Bool) : UInt8 :=
  match op with
  | add | addDecimal => a + b + carry.toUInt8
  | sub | subDecimal => a - b - carry.toUInt8

/-- The decimal correction of an intermediate result. -/
def corrected (op : DigitOp) (raw : UInt8) : UInt8 :=
  match op with
  | addDecimal => if raw > 9 then raw + 6 else raw
  | subDecimal => if raw > 9 then raw - 6 else raw
  | add | sub => raw

/-- The digit and the carry of `a ± b ± carry`. -/
def apply (op : DigitOp) (a b : UInt8) (carry : Bool) : UInt8 × Bool :=
  let result := op.corrected (op.intermediate a b carry)
  (result &&& 0x0F, result &&& 0x10 != 0)

end DigitOp

/-! ## Two digits in a byte -/

/-- Packs digits two to a byte, the first of each pair high. Only the low four bits of a digit
count, and a digit left over has a zero below it. -/
def pack : List UInt8 → List UInt8
  | [] => []
  | [high] => [(high &&& 0x0F) <<< 4]
  | high :: low :: rest => (((high &&& 0x0F) <<< 4) ||| (low &&& 0x0F)) :: pack rest

/-- The first `count` digits in a list of bytes, the high digit of each byte first. -/
def unpack (bytes : List UInt8) (count : Nat) : List UInt8 :=
  (bytes.flatMap fun (b : UInt8) ↦ [b >>> 4, b &&& 0x0F]).take count

/-- Two digits fill a byte, and a digit left over takes one of its own. -/
theorem length_pack (digits : List UInt8) : (pack digits).length = (digits.length + 1) / 2 := by
  fun_induction pack digits with
  | case1 => rfl
  | case2 => rw [List.length_singleton, List.length_singleton]
  | case3 high low rest ih =>
    rw [List.length_cons, ih, List.length_cons, List.length_cons]
    omega

/-! ## Selectors -/

/-! ### Banks -/

/-- A register bank, `A` to `D`. -/
structure Bank where
  /-- The bank number as it is carried. -/
  number : UInt8
deriving DecidableEq, Repr, Inhabited

namespace Bank

/-- The bank in the low two bits of a byte. -/
def ofByte (b : UInt8) : Bank := ⟨b &&& 0x03⟩

/-- The four banks in order. -/
def all : List Bank := [⟨0⟩, ⟨1⟩, ⟨2⟩, ⟨3⟩]

def letter (bank : Bank) : Char :=
  if bank.number = 0 then 'A' else if bank.number = 1 then 'B'
  else if bank.number = 2 then 'C' else 'D'

def ofLetter? (c : Char) : Option Bank :=
  if c = 'A' then some ⟨0⟩ else if c = 'B' then some ⟨1⟩
  else if c = 'C' then some ⟨2⟩ else if c = 'D' then some ⟨3⟩ else none

/-- The position of a bank in a register file. The number has to be below four; there is no such
bank otherwise, and the position means nothing. -/
def slot (bank : Bank) : Fin 4 := Fin.ofNat 4 bank.number.toNat

theorem ofLetter_letter {bank : Bank} (h : bank ∈ all) : ofLetter? bank.letter = some bank := by
  simp only [all, List.mem_cons, List.not_mem_nil, or_false] at h
  rcases h with rfl | rfl | rfl | rfl <;> rfl

end Bank

/-! ### Register numbers -/

/-- A register number within a bank. -/
structure Reg where
  /-- The register number as it is carried. -/
  number : UInt8
deriving DecidableEq, Repr, Inhabited

namespace Reg

/-- The register in the low five bits of a byte. -/
def ofByte (b : UInt8) : Reg := ⟨b &&& 0x1F⟩

/-- The register `n` above this one; after the last register comes the first. -/
def up (r : Reg) (n : UInt8) : Reg := ofByte (r.number + n)

/-- The register `n` below this one; before the first register comes the last. -/
def down (r : Reg) (n : UInt8) : Reg := ofByte (r.number - n)

/-- The position of a register in its bank. The number has to be below thirty-two; there is no such
register otherwise, and the position means nothing. -/
def slot (r : Reg) : Fin 32 := Fin.ofNat 32 r.number.toNat

theorem toNat_number_ofByte (b : UInt8) : (ofByte b).number.toNat = b.toNat % 32 := by
  rw [ofByte, UInt8.toNat_and]
  exact Nat.and_two_pow_sub_one_eq_mod b.toNat 5

end Reg

/-! ## Windows -/

/-- A run of registers. -/
structure Window where
  /-- The register of the least significant digit. -/
  first : Reg
  /-- The number of registers. -/
  length : Nat
deriving DecidableEq, Repr

namespace Window

/-- Register `i` counted from the first. -/
def reg (w : Window) (i : Nat) : Reg := w.first.up (UInt8.ofNat i)

/-- The registers from the least significant digit to the most significant. -/
def registers (w : Window) : List Reg := (List.range w.length).map w.reg

/-- The register of the most significant digit. -/
def top (w : Window) : Reg := w.reg (w.length - 1)

/-- The bytes that carry the window, two registers a byte. -/
def byteLength (w : Window) : Nat := (w.length + 1) / 2

@[simp] theorem length_registers (w : Window) : w.registers.length = w.length := by
  simp [registers]

end Window

/-! ## The register file -/

/-- Four banks of thirty-two cells. -/
structure RegisterFile where
  /-- The cells, bank by bank. -/
  banks : Vector (Vector UInt8 32) 4
deriving DecidableEq, Repr

namespace RegisterFile

def zero : RegisterFile := ⟨Vector.replicate 4 (Vector.replicate 32 0)⟩

instance : Inhabited RegisterFile := ⟨zero⟩

/-- The value of one register. -/
def get (file : RegisterFile) (bank : Bank) (r : Reg) : UInt8 := file.banks[bank.slot][r.slot]

/-- The file after the low four bits of `value` were stored in one register. -/
def set (file : RegisterFile) (bank : Bank) (r : Reg) (value : UInt8) : RegisterFile :=
  ⟨file.banks.set bank.slot (file.banks[bank.slot].set r.slot (value &&& 0x0F))⟩

def clearBank (file : RegisterFile) (bank : Bank) : RegisterFile :=
  ⟨file.banks.set bank.slot (Vector.replicate 32 0)⟩

/-- The cells of one bank in register order. -/
def cells (file : RegisterFile) (bank : Bank) : List UInt8 := file.banks[bank.slot].toList

/-! ### Stores and reads -/

variable (file : RegisterFile)

theorem get_set_self (bank : Bank) (r : Reg) (value : UInt8) :
    (file.set bank r value).get bank r = value &&& 0x0F := by
  simp [get, set]

theorem get_set_of_slot_ne {bank bank' : Bank} {r r' : Reg} (value : UInt8)
    (h : bank.slot ≠ bank'.slot ∨ r.slot ≠ r'.slot) :
    (file.set bank r value).get bank' r' = file.get bank' r' := by
  by_cases hb : bank.slot = bank'.slot
  · have hr : r.slot.val ≠ r'.slot.val := fun e ↦ h.resolve_left (· hb) (Fin.ext e)
    simp [get, set, hb, Vector.getElem_set_ne, hr]
  · have hb' : bank.slot.val ≠ bank'.slot.val := fun e ↦ hb (Fin.ext e)
    simp [get, set, Vector.getElem_set_ne, hb']

end RegisterFile

/-! ## Control registers and flags -/

inductive Flag where
  /-- The last subtraction or comparison came out at zero. -/
  | zero
  /-- The last operation carried or borrowed out of its top digit. -/
  | carry
deriving DecidableEq, Repr

def Flag.bit : Flag → UInt8
  | zero => 0x01
  | carry => 0x02

/-- The program counter after a reset, which is also where programs are loaded. -/
def stockResetPc : UInt16 := 0x1800

/-- The stack pointer after a reset. -/
def stockResetSp : UInt16 := 0x2000

/-- The registers that belong to no bank. -/
structure Control where
  /-- Address of the next instruction. -/
  pc : UInt16 := stockResetPc
  /-- Stack pointer; the stack grows down two bytes at a time. -/
  sp : UInt16 := stockResetSp
  /-- Address used by the window transfers. -/
  sa : UInt16 := 0
  /-- Address last sent to the display. -/
  la : UInt16 := 0
  /-- The flags byte. -/
  flags : UInt8 := 0
  /-- The bank that register fields address. -/
  currentBank : Bank := ⟨0⟩
  /-- The other bank of the cross-bank moves. -/
  additionalBank : Bank := ⟨0⟩
deriving DecidableEq, Repr, Inhabited

namespace Control

def flag (control : Control) (f : Flag) : Bool := control.flags &&& f.bit != 0

/-- The registers with one flag set or cleared. -/
def setFlag (control : Control) (f : Flag) (value : Bool) : Control :=
  { control with
    flags := if value then control.flags ||| f.bit else control.flags &&& ~~~f.bit }

/-! #### Bits of the flags byte -/

private theorem or_and_right (a b c : UInt8) : (a ||| b) &&& c = (a &&& c) ||| (b &&& c) :=
  UInt8.toBitVec_inj.mp BitVec.and_or_distrib_right

variable (control : Control) {f g : Flag}

/-- Setting a flag changes no bit but its own. -/
theorem flags_setFlag_and (value : Bool) {mask : UInt8} (h : f.bit &&& mask = 0) :
    (control.setFlag f value).flags &&& mask = control.flags &&& mask := by
  have hnot : ~~~f.bit &&& mask = mask := by
    have hall := or_and_right f.bit (~~~f.bit) mask
    rwa [UInt8.or_not_self, UInt8.neg_one_and, h, UInt8.zero_or, eq_comm] at hall
  cases value with
  | true =>
    change (control.flags ||| f.bit) &&& mask = _
    rw [or_and_right, h, UInt8.or_zero]
  | false =>
    change (control.flags &&& ~~~f.bit) &&& mask = _
    rw [UInt8.and_assoc, hnot]

theorem flag_setFlag_of_ne (value : Bool) (h : f ≠ g) :
    (control.setFlag f value).flag g = control.flag g := by
  have hbit : f.bit &&& g.bit = 0 := by
    cases f <;> cases g <;> first | rfl | exact absurd rfl h
  rw [flag, flag, flags_setFlag_and control value hbit]

theorem flag_setFlag_self (value : Bool) : (control.setFlag f value).flag f = value := by
  cases value with
  | true =>
    change ((control.flags ||| f.bit) &&& f.bit != 0) = true
    rw [or_and_right, UInt8.and_self, bne_iff_ne, Ne, UInt8.or_eq_zero_iff]
    rintro ⟨-, hzero⟩
    cases f <;> cases hzero
  | false =>
    change ((control.flags &&& ~~~f.bit) &&& f.bit != 0) = false
    rw [UInt8.and_assoc, UInt8.not_and_self, UInt8.and_zero]
    rfl

end Control

/-! ### Flag updates -/

/-- What an instruction does to the flags. -/
inductive FlagUpdate where
  /-- Both flags stay. -/
  | keep
  /-- Carry is set or cleared, Zero stays. -/
  | carry (value : Bool)
  /-- Both flags are set or cleared. -/
  | carryZero (carry zero : Bool)
deriving DecidableEq, Repr

def FlagUpdate.apply : FlagUpdate → Control → Control
  | keep, control => control
  | carry c, control => control.setFlag .carry c
  | carryZero c z, control => (control.setFlag .carry c).setFlag .zero z

/-! ## Sequences of register steps -/

/-- Where the value of a step comes from. -/
inductive Operand where
  /-- The register, as it is when the step is taken. -/
  | register (r : Reg)
  /-- The value itself. -/
  | immediate (value : UInt8)
deriving DecidableEq, Repr

/-- The value of an operand whose register lies in the given bank. -/
def Operand.value (file : RegisterFile) (bank : Bank) : Operand → UInt8
  | register r => file.get bank r
  | immediate value => value

/-- One step: the register it changes, and the operand. -/
structure Assignment where
  /-- The register that is changed. -/
  target : Reg
  /-- The operand. -/
  operand : Operand
deriving DecidableEq, Repr

namespace RegisterFile

/-- Stores operands from bank `src` in registers of bank `dst`, one after the other. -/
def assign (dst src : Bank) (file : RegisterFile) (steps : List Assignment) : RegisterFile :=
  steps.foldl (fun file step ↦ file.set dst step.target (step.operand.value file src)) file

/-- Combines registers of a bank with operands, one after the other, handing the carry from each
step to the next. The result is the file and the last carry. -/
def ripple (bank : Bank) (op : DigitOp) (file : RegisterFile) (carry : Bool)
    (steps : List Assignment) : RegisterFile × Bool :=
  steps.foldl (fun (file, carry) step ↦
    let (digit, carry) := op.apply (file.get bank step.target) (step.operand.value file bank) carry
    (file.set bank step.target digit, carry)) (file, carry)

/-- Compares pairs of registers, the most significant pair first: Zero says that all pairs are
equal, Carry that the left one of the first unequal pair is below the right one. -/
def comparePairs (bank : Bank) (file : RegisterFile) (pairs : List (Reg × Reg)) : FlagUpdate :=
  match pairs.find? fun pair ↦ file.get bank pair.1 != file.get bank pair.2 with
  | some pair => .carryZero (file.get bank pair.1 < file.get bank pair.2) false
  | none => .carryZero false true

end RegisterFile

end CalcWatch
