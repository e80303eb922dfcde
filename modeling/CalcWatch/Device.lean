import CalcWatch.Fault

/-!
# Devices

Everything on a bus is reached by an address of thirty-two bits, one byte at a time. Two kinds of
device can claim a range of these addresses, and a bus does not ask which kind it has: a device
serves single bytes, and a wider access is made of them.

## Addresses and ranges

Addresses have thirty-two bits. A device claims a half-open range of them, and its bounds are kept
in order by construction, so the number of cells is an honest subtraction and the position of an
address inside its range is a bounded index.

## Accesses of several bytes

Devices serve single bytes. A wider access is made of byte accesses at ascending addresses, and the
byte order says which place each byte has in the value. The bytes are handed to an arbitrary
faulting computation one by one, so an access that fails has already done whatever the bytes before
the failing one did.

## Cell stores

Memory is a run of cells, one for every address of a range, so a cell exists exactly where the range
says there is one. A cell holds a byte or a digit. A digit cell refuses what does not fit; it never
drops bits, because a program that relies on the dropped bits has a mistake in it. Whether a program
may read or write a store is for the bus to enforce: the store itself serves the host as well.

## Port latches

A port latch stands for the display controller. Every port keeps the bytes the program sent to it
and one byte for the program to read, which only the host sets: what a program reads back is never
what it wrote. The record of a port is cut back to its last bytes whenever it has grown to twice the
limit, so a program that writes for ever needs bounded room and each byte is moved at most once on
average. What the host sees is always cut to the limit.

## Any device

What can be attached to a bus: a store of cells or a latch of ports. Every device serves single
bytes, says whether a program may read and write it, and has a byte order for wide accesses. A store
is accepted or refused before anything changes, so a refused byte leaves the device as it was, and
of a wide store exactly the bytes below the refused one are kept.
-/

namespace CalcWatch

/-! ## Addresses and ranges -/

/-! ### Ranges -/

/-- The addresses from `low` up to, but not including, `high`. -/
structure AddressRange where
  /-- The first address. -/
  low : UInt32
  /-- The address after the last. -/
  high : UInt32
  /-- The bounds are in order. -/
  low_le_high : low ≤ high
deriving DecidableEq, Repr

namespace AddressRange

/-- The range between two bounds given in either order. -/
def between (a b : UInt32) : AddressRange :=
  if h : a ≤ b then ⟨a, b, h⟩
  else ⟨b, a, by rw [UInt32.le_iff_toNat_le] at *; omega⟩

def contains (range : AddressRange) (a : UInt32) : Bool := range.low ≤ a && a < range.high

def size (range : AddressRange) : Nat := range.high.toNat - range.low.toNat

/-- The position of an address in the range. -/
def index? (range : AddressRange) (a : UInt32) : Option (Fin range.size) :=
  if h : range.low ≤ a ∧ a < range.high then
    some ⟨a.toNat - range.low.toNat, by
      rw [UInt32.le_iff_toNat_le, UInt32.lt_iff_toNat_lt] at h
      unfold size
      omega⟩
  else none

theorem contains_iff {range : AddressRange} {a : UInt32} :
    range.contains a = true ↔ range.low ≤ a ∧ a < range.high := by
  simp [contains]

theorem isSome_index? (range : AddressRange) (a : UInt32) :
    (range.index? a).isSome = range.contains a := by
  rw [Bool.eq_iff_iff, contains_iff, index?]
  split <;> simp_all

theorem index?_inj {range : AddressRange} {a b : UInt32} {i : Fin range.size}
    (ha : range.index? a = some i) (hb : range.index? b = some i) : a = b := by
  unfold index? at ha hb
  split at ha <;> split at hb <;> simp_all only [Option.some.injEq, reduceCtorEq]
  next h₁ h₂ =>
  have hi := congrArg Fin.val (ha.trans hb.symm)
  simp only [UInt32.le_iff_toNat_le, UInt32.lt_iff_toNat_lt] at h₁ h₂ hi
  exact UInt32.toNat_inj.mp (by omega)

end AddressRange

/-! ### Neighbouring addresses -/

def addressCount : Nat := 0x100000000

def lastAddress : UInt32 := 0xFFFFFFFF

/-- The address `i` bytes above `start`. Addresses do not wrap: past the last one there is no
device, and the fault names the last address. -/
def byteAddress (start : UInt32) (i : Nat) : Except Fault UInt32 :=
  if start.toNat + i < addressCount then .ok (UInt32.ofNat (start.toNat + i))
  else .error (.unmappedAddress lastAddress)

theorem byteAddress_of_lt {start : UInt32} {i : Nat} (h : start.toNat + i < addressCount) :
    byteAddress start i = .ok (start + UInt32.ofNat i) := by
  have haddress : UInt32.ofNat (start.toNat + i) = start + UInt32.ofNat i := by
    rw [UInt32.ofNat_add, UInt32.ofNat_toNat]
  rw [byteAddress, if_pos h, haddress]

theorem toNat_add_ofNat {start : UInt32} {i : Nat} (h : start.toNat + i < addressCount) :
    (start + UInt32.ofNat i).toNat = start.toNat + i := by
  rw [← UInt32.ofNat_toNat (x := start), ← UInt32.ofNat_add, UInt32.ofNat_toNat]
  exact UInt32.toNat_ofNat_of_lt' h

theorem add_ofNat_zero (start : UInt32) : start + UInt32.ofNat 0 = start := UInt32.add_zero start

theorem add_one_add_ofNat (start : UInt32) (i : Nat) :
    start + 1 + UInt32.ofNat i = start + UInt32.ofNat (i + 1) := by
  rw [UInt32.add_assoc, Nat.add_comm i, UInt32.ofNat_add]
  rfl

/-- Ranges end before the last address. -/
theorem AddressRange.lt_of_contains {range : AddressRange} {a : UInt32}
    (h : range.contains a = true) : a.toNat + 1 < addressCount := by
  have hhigh := UInt32.lt_iff_toNat_lt.mp (contains_iff.mp h).2
  exact Nat.lt_of_le_of_lt hhigh range.high.toNat_lt

/-! ## Accesses of several bytes -/

/-- Which byte of a value has the lowest address. -/
inductive ByteOrder where
  /-- The least significant byte. -/
  | little
  /-- The most significant byte. -/
  | big
deriving DecidableEq, Repr, Inhabited

inductive Width where
  /-- One byte. -/
  | byte
  /-- Two bytes. -/
  | half
  /-- Four bytes. -/
  | word
  /-- Eight bytes. -/
  | double
deriving DecidableEq, Repr

def Width.bytes : Width → Nat
  | byte => 1
  | half => 2
  | word => 4
  | double => 8

namespace ByteOrder

/-- The place in the value, counted from the least significant, of byte `i` of `n`. -/
def place (order : ByteOrder) (n i : Nat) : Nat :=
  match order with
  | little => i
  | big => n - 1 - i

/-- What a byte at a place is worth. -/
def weight (place : Nat) : Nat := Nat.pow 256 place

/-- The byte of `value` at a place. -/
def byteAt (value place : Nat) : UInt8 := UInt8.ofNat (value / weight place)

variable {σ : Type}

/-- Reads the bytes from `start` upwards and puts the value together. -/
def compose (order : ByteOrder) (width : Width) (start : UInt32)
    (read : UInt32 → Faulting σ UInt8) : Faulting σ Nat :=
  (List.range width.bytes).foldlM (fun value i ↦ do
    let byte ← read (← Faulting.ofExcept (byteAddress start i))
    pure (value + byte.toNat * weight (order.place width.bytes i))) 0

/-- Takes the value apart and writes its bytes from `start` upwards. -/
def decompose (order : ByteOrder) (width : Width) (start : UInt32) (value : Nat)
    (write : UInt32 → UInt8 → Faulting σ Unit) : Faulting σ Unit :=
  (List.range width.bytes).forM fun i ↦ do
    write (← Faulting.ofExcept (byteAddress start i)) (byteAt value (order.place width.bytes i))

end ByteOrder

/-! ## Cell stores -/

/-- What one cell holds. -/
inductive CellWidth where
  /-- A digit of four bits. -/
  | nibble
  /-- A byte. -/
  | byte
deriving DecidableEq, Repr

def CellWidth.largest : CellWidth → UInt8
  | nibble => 0x0F
  | byte => 0xFF

/-- A run of cells. -/
structure CellStore where
  /-- The addresses of the cells. -/
  range : AddressRange
  /-- What one cell holds. -/
  width : CellWidth := .byte
  /-- Whether a program may read the cells. -/
  readable : Bool := true
  /-- Whether a program may write the cells. -/
  writable : Bool := true
  /-- The byte order of wide accesses. -/
  order : ByteOrder := .little
  /-- The cells in address order. -/
  cells : Vector UInt8 range.size := Vector.replicate range.size 0
deriving DecidableEq, Repr

namespace CellStore

def read (store : CellStore) (a : UInt32) : Except Fault UInt8 :=
  match store.range.index? a with
  | some i => .ok store.cells[i]
  | none => .error (.unmappedAddress a)

/-- Whether a value may be stored at an address; a missing cell is reported before a value that does
not fit. -/
def check (store : CellStore) (a : UInt32) (value : UInt8) : Except Fault Unit :=
  if store.range.contains a then
    if value ≤ store.width.largest then .ok () else .error (.outOfRangeValue a value)
  else .error (.unmappedAddress a)

/-- The store with a new value in the cell at an address. -/
def put (store : CellStore) (a : UInt32) (value : UInt8) : CellStore :=
  match store.range.index? a with
  | some i => { store with cells := store.cells.set i value }
  | none => store

/-- The contents as bytes, for a store of byte cells. -/
def bytes? (store : CellStore) : Option (List UInt8) :=
  match store.width with
  | .byte => some store.cells.toList
  | .nibble => none

/-! ### Stores and reads -/

variable {store : CellStore} {a : UInt32}

theorem put_of_index {i : Fin store.range.size} (value : UInt8)
    (h : store.range.index? a = some i) :
    store.put a value = { store with cells := store.cells.set i value } := by
  rw [put, h]

theorem read_put_self (value : UInt8) (h : store.range.contains a = true) :
    (store.put a value).read a = .ok value := by
  obtain ⟨i, hi⟩ := Option.isSome_iff_exists.mp ((store.range.isSome_index? a).trans h)
  rw [put_of_index value hi, read, hi]
  simp

end CellStore

/-! ## Port latches -/

/-! ### One port -/

structure Port where
  /-- The byte a program reads. -/
  input : UInt8 := 0
  /-- Bytes sent by the program, oldest first. -/
  written : Array UInt8 := #[]
deriving DecidableEq, Repr, Inhabited

namespace Port

/-- The port after one more byte was sent to it. -/
def record (port : Port) (limit : Nat) (value : UInt8) : Port :=
  let written := port.written.push value
  { port with
    written :=
      if max (2 * limit) 1 ≤ written.size then
        written.extract (written.size - limit) written.size
      else written }

/-- The last `limit` bytes sent to the port, oldest first. -/
def recent (port : Port) (limit : Nat) : List UInt8 :=
  port.written.toList.drop (port.written.size - limit)

end Port

/-! ### The latch -/

/-- The number of bytes that every port of a stock latch keeps. -/
def stockCaptureLimit : Nat := 4096

/-- A run of ports. -/
structure PortLatch where
  /-- The addresses of the ports. -/
  range : AddressRange
  /-- The number of bytes that every port keeps. -/
  captureLimit : Nat := stockCaptureLimit
  /-- The ports in address order. -/
  ports : Vector Port range.size := Vector.replicate range.size {}
deriving DecidableEq, Repr

namespace PortLatch

/-- The latch with one port changed. -/
def modify (latch : PortLatch) (a : UInt32) (change : Port → Port) : PortLatch :=
  match latch.range.index? a with
  | some i =>
    { latch with ports := ⟨latch.ports.toArray.modify i change, by simp⟩ }
  | none => latch

def read (latch : PortLatch) (a : UInt32) : Except Fault UInt8 :=
  match latch.range.index? a with
  | some i => .ok latch.ports[i].input
  | none => .error (.unmappedAddress a)

def check (latch : PortLatch) (a : UInt32) : Except Fault Unit :=
  if latch.range.contains a then .ok () else .error (.unmappedAddress a)

/-- The latch after a program sent a byte to a port. -/
def put (latch : PortLatch) (a : UInt32) (value : UInt8) : PortLatch :=
  let limit := latch.captureLimit
  latch.modify a (·.record limit value)

/-- The latch after the host set the byte that a program reads from a port. -/
def setInput (latch : PortLatch) (a : UInt32) (value : UInt8) : PortLatch :=
  latch.modify a ({ · with input := value })

/-- The latch with every record empty; what programs read stays. -/
def clearOutput (latch : PortLatch) : PortLatch :=
  { latch with ports := latch.ports.map ({ · with written := #[] }) }

/-- The bytes sent to a port, cut to the limit; `none` where there is no port. -/
def captured? (latch : PortLatch) (a : UInt32) : Option (List UInt8) :=
  (latch.range.index? a).map fun i ↦ latch.ports[i].recent latch.captureLimit

/-- The bytes sent to a port, cut to the limit; nothing where there is no port. -/
def written (latch : PortLatch) (a : UInt32) : List UInt8 := (latch.captured? a).getD []

end PortLatch

/-! ## Any device -/

inductive Device where
  /-- A store of cells. -/
  | store (cells : CellStore)
  /-- A latch of ports. -/
  | latch (ports : PortLatch)
deriving DecidableEq, Repr

namespace Device

/-! ### What a device says about itself -/

/-- The addresses the device claims. -/
def range : Device → AddressRange
  | store cells => cells.range
  | latch ports => ports.range

def readable : Device → Bool
  | store cells => cells.readable
  | latch _ => true

def writable : Device → Bool
  | store cells => cells.writable
  | latch _ => true

/-- The byte order of wide accesses. A latch has no say in it: its ports are a byte wide. -/
def order : Device → ByteOrder
  | store cells => cells.order
  | latch _ => .little

def contains (device : Device) (a : UInt32) : Bool := device.range.contains a

/-- The bytes a program sent to the port at an address; `none` where nothing is recorded. -/
def captured? (device : Device) (a : UInt32) : Option (List UInt8) :=
  match device with
  | store _ => none
  | latch ports => ports.captured? a

/-! ### Single bytes -/

def read (device : Device) (a : UInt32) : Except Fault UInt8 :=
  match device with
  | store cells => cells.read a
  | latch ports => ports.read a

/-- Whether the device takes a byte at an address, from a program and from the host alike. -/
def check (a : UInt32) (value : UInt8) : Device → Except Fault Unit
  | store cells => cells.check a value
  | latch ports => ports.check a

/-- The device after a program wrote a byte. -/
def put (a : UInt32) (value : UInt8) : Device → Device
  | store cells => store (cells.put a value)
  | latch ports => latch (ports.put a value)

/-- The device after the host placed a byte: the contents of a cell, or what a program will read
from a port. -/
def install (a : UInt32) (value : UInt8) : Device → Device
  | store cells => store (cells.put a value)
  | latch ports => latch (ports.setInput a value)

/-- Writes a byte as a program does. -/
def write (a : UInt32) (value : UInt8) : Faulting Device Unit :=
  Faulting.guarded (check a value) (put a value)

/-- Places a byte as the host does. -/
def load (a : UInt32) (value : UInt8) : Faulting Device Unit :=
  Faulting.guarded (check a value) (install a value)

/-! ### Wide accesses -/

/-- The value of several bytes in the byte order of the device. -/
def readWide (device : Device) (width : Width) (a : UInt32) : Except Fault Nat :=
  (device.order.compose width a fun b ↦ Faulting.ask (·.read b)).answer device

/-- Writes a value of several bytes in the byte order of the device. -/
def writeWide (width : Width) (a : UInt32) (value : Nat) : Faulting Device Unit := do
  let order ← Faulting.view order
  order.decompose width a value write

end Device

end CalcWatch
