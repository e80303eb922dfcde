import CalcWatch.Proofs.Arithmetic.Ripple
import CalcWatch.Proofs.Bus.Serving
import CalcWatch.Proofs.Execution.Steps
import CalcWatch.Proofs.Invariants.Parts
import Mathlib.Algebra.Ring.Parity

/-!
# Digits, windows and streams

Bytes leave the registers in windows and leave the memory in streams. Windows can be loaded again; a
stream goes to the data port alone.

## Digits in bytes

A byte of two digits is sixteen times the first and the second, so a shift and a mask give them
back. The zero that fills up an odd number of digits is never unpacked, since the number of digits
is known when they are. Bytes come back from their digits as well, all of them, and digits behind an
even number of others are packed as if they stood alone.

## Windows in memory and back

A store packs a window from its top digit down and leaves the bytes at the transfer address and
behind it; a load of as many digits takes them from there. If the memory keeps what is stored, the
digits arrive in the other window in the order in which they left the first. Neither the end of the
bank nor the end of the memory makes a difference, since both stores and loads turn round there. The
data port gets the same bytes as the memory.

## Streams

A call of a streaming routine fetches bytes from the transfer address upwards and sends each to the
data port before it fetches the next. The transfer address follows: it moves on once the port has
taken a byte, so it stands behind the bytes that were sent at every moment, also when the stream
breaks off. How far a stream gets depends only on the accesses it makes, and either all of them
succeed or one of them is the first to fail.
-/

namespace CalcWatch

/-! ## Digits in bytes -/

/-! ### One byte -/

section

variable {high low : UInt8}

theorem toNat_digits (hhigh : high ≤ 15) (hlow : low ≤ 15) :
    (high <<< 4 ||| low).toNat = 16 * high.toNat + low.toNat := by
  have hhigh : high.toNat ≤ 15 := UInt8.le_iff_toNat_le.mp hhigh
  have hlow : low.toNat < 2 ^ 4 := Nat.lt_succ_of_le (UInt8.le_iff_toNat_le.mp hlow)
  have hshift : (high <<< 4).toNat = 2 ^ 4 * high.toNat := by
    rw [UInt8.toNat_shiftLeft, Nat.shiftLeft_eq]
    change high.toNat * 2 ^ 4 % 2 ^ 8 = _
    omega
  rw [UInt8.toNat_or, hshift, ← Nat.two_pow_add_eq_or_of_lt hlow]

theorem digits_eq_add (hhigh : high ≤ 15) (hlow : low ≤ 15) :
    high <<< 4 ||| low = high * 16 + low := by
  rw [← UInt8.toNat_inj, toNat_digits hhigh hlow, UInt8.toNat_add, UInt8.toNat_mul]
  have hhigh : high.toNat ≤ 15 := UInt8.le_iff_toNat_le.mp hhigh
  have hlow : low.toNat ≤ 15 := UInt8.le_iff_toNat_le.mp hlow
  change _ = (high.toNat * 16 % 256 + low.toNat) % 256
  omega

theorem digits_shiftRight (hhigh : high ≤ 15) (hlow : low ≤ 15) :
    (high <<< 4 ||| low) >>> 4 = high := by
  have hlow' : low.toNat ≤ 15 := UInt8.le_iff_toNat_le.mp hlow
  rw [← UInt8.toNat_inj, UInt8.toNat_shiftRight, toNat_digits hhigh hlow,
    Nat.shiftRight_eq_div_pow]
  change (16 * high.toNat + low.toNat) / 2 ^ 4 = high.toNat
  omega

theorem digits_and (hhigh : high ≤ 15) (hlow : low ≤ 15) :
    (high <<< 4 ||| low) &&& 0x0F = low := by
  have hlow' : low.toNat ≤ 15 := UInt8.le_iff_toNat_le.mp hlow
  rw [← UInt8.toNat_inj, DigitOp.toNat_and_low, toNat_digits hhigh hlow]
  omega

theorem digit_and (hlow : low ≤ 15) : low &&& 0x0F = low := by
  rw [← UInt8.toNat_inj, DigitOp.toNat_and_low]
  exact Nat.mod_eq_of_lt (Nat.lt_succ_of_le (UInt8.le_iff_toNat_le.mp hlow))

theorem and_low_eq_mod (digit : UInt8) : digit &&& 0x0F = digit % 16 := by
  rw [← UInt8.toNat_inj, DigitOp.toNat_and_low, UInt8.toNat_mod]
  rfl

/-- A byte is put together from its own digits. -/
theorem digits_of_byte (byte : UInt8) :
    (byte >>> 4 &&& 0x0F) <<< 4 ||| (byte &&& 0x0F &&& 0x0F) = byte := by
  rw [← UInt8.toNat_inj, toNat_digits UInt8.and_le_right UInt8.and_le_right,
    DigitOp.toNat_and_low, DigitOp.toNat_and_low, DigitOp.toNat_and_low, UInt8.toNat_shiftRight,
    Nat.shiftRight_eq_div_pow]
  change 16 * (byte.toNat / 2 ^ 4 % 16) + byte.toNat % 16 % 16 = byte.toNat
  have hbyte := byte.toNat_lt
  omega

end

/-! ### Many bytes -/

theorem unpack_pack (digits : List UInt8) :
    unpack (pack digits) digits.length = digits.map (· &&& 0x0F) := by
  have hle : ∀ digit : UInt8, digit &&& 0x0F ≤ 15 := fun digit ↦ UInt8.and_le_right
  fun_induction pack digits with
  | case1 => rfl
  | case2 high =>
    have hzero : (high &&& 0x0F) <<< 4 >>> 4 = high &&& 0x0F := by
      have h := digits_shiftRight (hle high) (hle 0)
      rwa [UInt8.zero_and, UInt8.or_zero] at h
    exact congrArg (fun digit ↦ [digit]) hzero
  | case3 high low rest ih =>
    rw [unpack, List.flatMap_cons, digits_shiftRight (hle high) (hle low),
      digits_and (hle high) (hle low), List.length_cons, List.length_cons, List.cons_append,
      List.cons_append, List.nil_append, List.take_succ_cons, List.take_succ_cons, List.map_cons,
      List.map_cons]
    exact congrArg (fun digits ↦ (high &&& 0x0F) :: (low &&& 0x0F) :: digits) ih

/-! #### Packing -/

section

variable {digits : List UInt8}

/-- Byte `i` is made of the digits `2 * i` and `2 * i + 1`, where a digit that is missing counts as
zero. -/
theorem toNat_of_getElem?_pack {i : ℕ} {byte : UInt8} (h : (pack digits)[i]? = some byte) :
    byte.toNat =
      16 * (digits.getD (2 * i) 0 % 16).toNat + (digits.getD (2 * i + 1) 0 % 16).toNat := by
  have hbyte : ∀ high low : UInt8, ((high &&& 0x0F) <<< 4 ||| (low &&& 0x0F)).toNat =
      16 * (high % 16).toNat + (low % 16).toNat := by
    intro high low
    rw [toNat_digits UInt8.and_le_right UInt8.and_le_right, and_low_eq_mod, and_low_eq_mod]
  fun_induction pack digits generalizing i with
  | case1 => cases h
  | case2 high =>
    obtain ⟨rfl, rfl⟩ : i = 0 ∧ (high &&& 0x0F) <<< 4 = byte := by
      cases i with
      | zero => exact ⟨rfl, Option.some.inj h⟩
      | succ i => cases h
    have hhigh := hbyte high 0
    rwa [UInt8.zero_and, UInt8.or_zero] at hhigh
  | case3 high low rest ih =>
    cases i with
    | zero =>
      obtain rfl := Option.some.inj h
      exact hbyte high low
    | succ i => exact ih h

theorem pack_append (heven : Even digits.length) (more : List UInt8) :
    pack (digits ++ more) = pack digits ++ pack more := by
  fun_induction pack digits with
  | case1 => rfl
  | case2 high => exact absurd heven Nat.not_even_one
  | case3 high low rest ih =>
    have hrest : Even rest.length := by simpa [Nat.even_add_one] using heven
    exact congrArg (_ :: ·) (ih hrest)

/-- A digit that is left over is packed as if a zero came behind it. -/
theorem pack_concat_zero (hodd : Odd digits.length) : pack (digits ++ [0]) = pack digits := by
  fun_induction pack digits with
  | case1 => exact absurd hodd Nat.not_odd_zero
  | case2 high =>
    change [(high &&& 0x0F) <<< 4 ||| 0] = _
    rw [UInt8.or_zero]
  | case3 high low rest ih =>
    have hrest : Odd rest.length := by simpa [Nat.odd_add_one] using hodd
    exact congrArg (_ :: ·) (ih hrest)

/-- What becomes of digits that are packed. -/
structure PacksDigits (digits : List UInt8) : Prop where
  /-- There are half as many bytes, rounded up. -/
  length : (pack digits).length = (digits.length + 1) / 2
  /-- A byte is made of two digits that stand side by side; one that is missing counts as zero. -/
  made : ∀ i byte, (pack digits)[i]? = some byte → byte.toNat =
    16 * (digits.getD (2 * i) 0 % 16).toNat + (digits.getD (2 * i + 1) 0 % 16).toNat
  /-- The digits come out again, reduced to what a digit can be. -/
  unpacked : unpack (pack digits) digits.length = digits.map (· % 16)
  /-- An odd number of them is filled up with a zero. -/
  padded : Odd digits.length →
    unpack (pack digits) (digits.length + 1) = digits.map (· % 16) ++ [0]
  /-- What follows an even number of them is packed by itself. -/
  append : Even digits.length → ∀ more, pack (digits ++ more) = pack digits ++ pack more

theorem packsDigits (digits : List UInt8) : PacksDigits digits := by
  have hdigit : (· &&& 0x0F) = fun digit : UInt8 ↦ digit % 16 := funext and_low_eq_mod
  refine ⟨length_pack digits, fun i byte ↦ toNat_of_getElem?_pack, ?_, fun hodd ↦ ?_, pack_append⟩
  · rw [unpack_pack, hdigit]
  · have hzero := unpack_pack (digits ++ [0])
    rwa [pack_concat_zero hodd, List.length_append, List.map_append, hdigit] at hzero

end

/-! #### Unpacking -/

section

variable (bytes : List UInt8) (count : ℕ)

private theorem length_flatMap_digits :
    (bytes.flatMap fun (byte : UInt8) ↦ [byte >>> 4, byte &&& 0x0F]).length = 2 * bytes.length := by
  rw [List.length_flatMap]
  simp [List.map_const', Nat.mul_comm]

theorem unpack_all : unpack bytes (2 * bytes.length) =
    bytes.flatMap fun (byte : UInt8) ↦ [byte >>> 4, byte &&& 0x0F] :=
  List.take_of_length_le (length_flatMap_digits bytes).le

theorem length_unpack : (unpack bytes count).length = min count (2 * bytes.length) := by
  rw [unpack, List.length_take, length_flatMap_digits]

theorem le_of_mem_unpack {digit : UInt8} (h : digit ∈ unpack bytes count) : digit ≤ 15 := by
  obtain ⟨byte, -, hdigit⟩ := List.mem_flatMap.mp (List.mem_of_mem_take h)
  rw [List.mem_cons, List.mem_singleton] at hdigit
  rcases hdigit with rfl | rfl
  · rw [UInt8.le_iff_toNat_le, UInt8.toNat_shiftRight, Nat.shiftRight_eq_div_pow]
    change byte.toNat / 2 ^ 4 ≤ 15
    have hbyte := byte.toNat_lt
    omega
  · exact UInt8.and_le_right

theorem pack_unpack : pack (unpack bytes (2 * bytes.length)) = bytes := by
  rw [unpack_all]
  induction bytes with
  | nil => rfl
  | cons byte bytes ih =>
    rw [List.flatMap_cons, List.cons_append, List.cons_append, List.nil_append, pack, ih,
      digits_of_byte]

/-- What becomes of bytes that are unpacked. -/
structure UnpacksBytes (bytes : List UInt8) : Prop where
  /-- From all of their digits the bytes are packed again. -/
  packed : pack (unpack bytes (2 * bytes.length)) = bytes
  /-- There are as many digits as are asked for, as long as the bytes have them. -/
  length : ∀ count, (unpack bytes count).length = min count (2 * bytes.length)
  /-- They are digits. -/
  digits : ∀ count, ∀ digit ∈ unpack bytes count, digit ≤ 15
  /-- They are the first ones. -/
  first : ∀ count, unpack bytes count = (unpack bytes (2 * bytes.length)).take count

theorem unpacksBytes : UnpacksBytes bytes where
  packed := pack_unpack bytes
  length := length_unpack bytes
  digits count _ := le_of_mem_unpack bytes count
  first count := by rw [unpack_all, unpack]

end

/-- **Packing loses nothing but what is no digit**, and unpacking loses nothing. -/
theorem pack_and_unpack :
    (∀ digits, PacksDigits digits) ∧ ∀ bytes, UnpacksBytes bytes :=
  ⟨packsDigits, unpacksBytes⟩

example : pack [0x1, 0x2, 0x13] = [0x12, 0x30] := by decide

/-! ## Windows in memory and back -/

namespace Machine

open Bus (writeAll)
open Faulting (finalState)

variable {m n stored : Machine} {w w' : Window} {memory : Bus} {inst : Instruction}
  {advance : Bool}

/-! ### The bytes of a window -/

theorem length_windowBytes (m : Machine) (w : Window) :
    (m.windowBytes w).length = w.byteLength := by
  rw [windowBytes, length_pack, List.length_map, List.length_reverse, Window.length_registers]
  rfl

theorem length_windowAddresses (m : Machine) (w : Window) :
    (m.windowAddresses w).length = w.byteLength := by
  rw [windowAddresses, List.length_map, List.length_range]

theorem nodup_windowAddresses (hshort : w.byteLength ≤ 2 ^ 16) : (m.windowAddresses w).Nodup := by
  refine List.Nodup.map_on (fun i hi j hj heq ↦ ?_) List.nodup_range
  have hi := List.mem_range.mp hi
  have hj := List.mem_range.mp hj
  have hsame := congrArg UInt16.toNat ((UInt16.add_right_inj m.control.sa).mp heq)
  rw [UInt16.toNat_ofNat', UInt16.toNat_ofNat'] at hsame
  change i % 2 ^ 16 = j % 2 ^ 16 at hsame
  omega

/-- Where the memory keeps what is stored, the bytes of a window are found again. -/
theorem forall₂_read_of_stored (hshort : w.byteLength ≤ 2 ^ 16)
    (hretains : ∀ a ∈ m.windowAddresses w, m.memory.Retains a.toUInt32)
    (hstored : writeAll (m.windowStores w) m.memory = .ok () memory) :
    List.Forall₂ (fun a byte ↦ memory.read a.toUInt32 = .ok byte)
      (m.windowAddresses w) (m.windowBytes w) := by
  have hlength : (m.windowAddresses w).length = (m.windowBytes w).length := by
    rw [length_windowAddresses, length_windowBytes]
  have hnodup : ((m.windowStores w).map Prod.fst).Nodup := by
    rw [windowStores, List.map_fst_zip (by rw [List.length_map, hlength])]
    exact (nodup_windowAddresses hshort).map fun a b ↦ UInt16.toUInt32_inj.mp
  refine List.forall₂_iff_zip.mpr ⟨hlength, fun {a byte} hmem ↦ ?_⟩
  have hstore : (a.toUInt32, byte) ∈ m.windowStores w := by
    rw [windowStores, List.zip_map_left]
    exact List.mem_map_of_mem hmem
  exact Bus.read_of_writeAll hnodup hstored hstore (hretains a (List.of_mem_zip hmem).1)

/-! ### The digits of a window -/

/-- Digits that were packed from one window arrive in the other one in their places. -/
theorem reg_fillWindow (hlength : w'.length = w.length) (hshort : w.length ≤ 32) {i : ℕ}
    (hi : i < w.length) :
    (n.fillWindow w' (unpack (m.windowBytes w) w'.length)).registers.get (n.bank .current)
      (w'.reg i) = m.reg (w.reg i) &&& 0x0F := by
  have hdigits : unpack (m.windowBytes w) w'.length
      = (w.registers.reverse.map m.reg).map (· &&& 0x0F) := by
    rw [windowBytes, ← unpack_pack, List.length_map, List.length_reverse, Window.length_registers,
      hlength]
  have hsteps : w'.fillSteps (unpack (m.windowBytes w) w'.length)
      = (List.range w.length).reverse.map fun i ↦
          ⟨w'.reg i, .immediate (m.reg (w.reg i) &&& 0x0F)⟩ := by
    rw [hdigits, Window.fillSteps, Window.registers, Window.registers, hlength, ← List.map_reverse,
      ← List.map_reverse, List.map_map, List.map_map, List.zip_map', List.map_map]
    rfl
  have hspares : (w'.fillSteps (unpack (m.windowBytes w) w'.length)).Pairwise
      Assignment.Spares := by
    rw [hsteps, List.pairwise_map, List.pairwise_reverse]
    refine List.pairwise_lt_range.imp_of_mem fun {i j} _ hj hij ↦ ⟨?_, fun r hr ↦ ?_⟩
    · exact (Window.slot_reg_ne (hlength ▸ hshort) hij (hlength ▸ List.mem_range.mp hj)).symm
    · cases hr
  have hmem : ⟨w'.reg i, .immediate (m.reg (w.reg i) &&& 0x0F)⟩
      ∈ w'.fillSteps (unpack (m.windowBytes w) w'.length) := by
    rw [hsteps]
    exact List.mem_map.mpr ⟨i, List.mem_reverse.mpr (List.mem_range.mpr hi), rfl⟩
  rw [fillWindow_eq]
  refine (RegisterFile.get_assign_of_mem hspares hmem n.registers).trans ?_
  rw [Operand.value, UInt8.and_assoc, UInt8.and_self]

/-! ### Stores and loads -/

theorem of_store_ok (hop : inst.operation = .store w advance)
    (h : execute inst m = .ok () stored) :
    writeAll (m.windowStores w) m.memory = .ok () stored.memory ∧
      stored = { m with
        control := { m.control with pc := m.control.pc + 2, sa := m.saPast w advance }
        memory := stored.memory } := by
  obtain ⟨completion, t, hperform, rfl⟩ := exists_of_execute_ok h
  rw [hop] at hperform
  obtain ⟨_, t, hstore, hproceed⟩ := Faulting.exists_of_bind_ok hperform
  obtain ⟨memory, hmemory, rfl⟩ := exists_of_storeWindow_ok hstore
  cases hproceed
  exact ⟨hmemory, rfl⟩

/-- Whether or not a store is carried through, it writes the bytes of the window. -/
theorem memory_execute_store (hop : inst.operation = .store w advance) (m : Machine) :
    (finalState (execute inst m)).memory = finalState (writeAll (m.windowStores w) m.memory) := by
  calc (finalState (execute inst m)).memory
      = (finalState (perform (.store w advance) m)).memory :=
        hop ▸ Faulting.finalState_bind (fun _ _ ↦ rfl) m
    _ = (finalState (storeWindow w advance m)).memory := Faulting.finalState_bind (fun _ _ ↦ rfl) m
    _ = (finalState (onMemory (writeAll (m.windowStores w)) m)).memory := by
        rw [storeWindow_apply]
        exact Faulting.finalState_bind (fun _ n ↦ by rw [advancePast_apply]; rfl) m
    _ = finalState (writeAll (m.windowStores w) m.memory) := by
        rw [onMemory_apply]
        cases writeAll (m.windowStores w) m.memory <;> rfl

/-- Whether or not the data port takes all bytes, the bytes of the payload are sent there. -/
theorem ports_execute_send {payload : Payload} (hop : inst.operation = .send payload)
    (m : Machine) : (finalState (execute inst m)).ports
      = finalState (writeAll (toDataPort (m.payloadBytes payload)) m.ports) := by
  calc (finalState (execute inst m)).ports
      = (finalState (perform (.send payload) m)).ports :=
        hop ▸ Faulting.finalState_bind (fun _ _ ↦ rfl) m
    _ = (finalState (send payload m)).ports := Faulting.finalState_bind (fun _ _ ↦ rfl) m
    _ = finalState (writeAll (toDataPort (m.payloadBytes payload)) m.ports) := by
        rw [send_apply, onPorts_apply]
        cases writeAll (toDataPort (m.payloadBytes payload)) m.ports <;> rfl

theorem execute_load {bytes : List UInt8} (hop : inst.operation = .load w advance)
    (h : (m.windowAddresses w).mapM m.memoryByte = .ok bytes) :
    execute inst m = .ok () { m with
      registers := (m.fillWindow w (unpack bytes w.length)).registers
      control := { m.control with pc := m.control.pc + 2, sa := m.saPast w advance } } := by
  have hperform : perform inst.operation m = .ok ⟨.keep, m.control.pc + 2⟩ { m with
      registers := (m.fillWindow w (unpack bytes w.length)).registers
      control := { m.control with sa := m.saPast w advance } } := by
    rw [hop, perform, Faulting.bind_of_ok (loadWindow_of_bytes h)]
    rfl
  rw [execute, Faulting.bind_of_ok hperform]
  rfl

/-- From `m` to `m'` the digits of one window were copied to another one, by way of the memory. -/
structure Copies (m : Machine) (w w' : Window) (sa : UInt16) (m' : Machine) : Prop where
  /-- A register holds what belongs into a digit of what the other register held. -/
  reg : ∀ i < w.length, m'.reg (w'.reg i) = m.reg (w.reg i) &&& 0x0F
  /-- Registers that hold digits are copied as they are. -/
  digit : m.registers.Nibbles → ∀ i < w.length, m'.reg (w'.reg i) = m.reg (w.reg i)
  /-- No other register has changed. -/
  registers : m.registers.AgreeOff (w'.registers.map (m.bank .current).cell) m'.registers
  /-- Two instructions have been executed, and nothing else has changed. -/
  eq : m' = { m with
    registers := m'.registers, control := { m.control with pc := m.control.pc + 4, sa }
    memory := m'.memory }

theorem exists_load_of_stored (hop : inst.operation = .load w' advance)
    (hlength : w'.length = w.length) (hshort : w.length ≤ 32)
    (hretains : ∀ a ∈ m.windowAddresses w, m.memory.Retains a.toUInt32)
    (hstored : writeAll (m.windowStores w) m.memory = .ok () memory) :
    ∃ loaded, execute inst { m with
        control := { m.control with pc := m.control.pc + 2 }, memory } = .ok () loaded ∧
      m.Copies w w' (m.saPast w advance) loaded := by
  let n : Machine := { m with control := { m.control with pc := m.control.pc + 2 }, memory }
  have hbyteLength : w'.byteLength = w.byteLength := by
    rw [Window.byteLength, hlength, Window.byteLength]
  have haddresses : n.windowAddresses w' = m.windowAddresses w := by
    rw [windowAddresses, hbyteLength]
    rfl
  have hbytes : (n.windowAddresses w').mapM n.memoryByte = .ok (m.windowBytes w) := by
    have hshort' : w.byteLength ≤ 2 ^ 16 := by
      rw [Window.byteLength]
      omega
    rw [haddresses]
    exact mapM_eq_ok_iff.mpr (forall₂_read_of_stored hshort' hretains hstored)
  have hreg : ∀ i < w.length, (n.fillWindow w' (unpack (m.windowBytes w) w'.length)).registers.get
      (m.bank .current) (w'.reg i) = m.reg (w.reg i) &&& 0x0F :=
    fun i hi ↦ reg_fillWindow (n := n) hlength hshort hi
  have hagree : m.registers.AgreeOff (w'.registers.map (m.bank .current).cell)
      (n.fillWindow w' (unpack (m.windowBytes w) w'.length)).registers := by
    rw [fillWindow_eq]
    exact w'.agreeOff_fillSteps _ _ _
  refine ⟨_, execute_load (m := n) hop hbytes, hreg, fun hnibbles i hi ↦ ?_, hagree, ?_⟩
  · exact (hreg i hi).trans (digit_and (hnibbles.get_le _ _))
  · have hpc : m.control.pc + 2 + 2 = m.control.pc + 4 := by grind
    have hsa : n.saPast w' advance = m.saPast w advance := by
      rw [saPast, hbyteLength]
      rfl
    rw [hsa]
    change { n with
      registers := _, control := { m.control with pc := m.control.pc + 2 + 2, sa := _ } } = _
    rw [hpc]

/-- **What is stored can be loaded**, and the data port gets the same bytes. -/
theorem load_of_store (word word' : UInt16) {w w' : Window}
    (hw : (Instruction.mk word .stsm).destination = w)
    (hw' : (Instruction.mk word' .ldsm).destination = w') (hlength : w'.length = w.length)
    (hretains : ∀ a ∈ m.windowAddresses w, m.memory.Retains a.toUInt32) :
    (∀ stored, execute ⟨word, .stsm⟩ m = .ok () stored →
      ∃ loaded, execute ⟨word', .ldsm⟩ stored = .ok () loaded ∧
        m.Copies w w' m.control.sa loaded) ∧
    (∀ stored, execute ⟨word, .psam⟩ m = .ok () stored →
      stored.control.sa = m.control.sa + UInt16.ofNat w.byteLength ∧
      ∃ loaded, execute ⟨word', .plam⟩
          { stored with control := { stored.control with sa := m.control.sa } } = .ok () loaded ∧
        m.Copies w w' (m.control.sa + UInt16.ofNat w.byteLength) loaded) ∧
    ∃ bytes : List UInt8, bytes.length = w.byteLength ∧
      (finalState (execute ⟨word, .stlm⟩ m)).ports
        = finalState (writeAll (toDataPort bytes) m.ports) ∧
      ∀ form ∈ [Form.stsm, .psam], (finalState (execute ⟨word, form⟩ m)).memory
        = finalState (writeAll (((m.windowAddresses w).map (·.toUInt32)).zip bytes) m.memory) := by
  have hstsm : (Instruction.mk word .stsm).operation = .store w false := by rw [← hw]; rfl
  have hpsam : (Instruction.mk word .psam).operation = .store w true := by rw [← hw]; rfl
  have hldsm : (Instruction.mk word' .ldsm).operation = .load w' false := by rw [← hw']; rfl
  have hplam : (Instruction.mk word' .plam).operation = .load w' true := by rw [← hw']; rfl
  have hstlm : (Instruction.mk word .stlm).operation = .send (.window w) := by rw [← hw]; rfl
  have hshort : w.length ≤ 32 := by
    rw [← hw]
    exact (Instruction.mk word .stsm).length_destination_le.trans (by decide)
  refine ⟨fun stored hstore ↦ ?_, fun stored hstore ↦ ?_, m.windowBytes w, m.length_windowBytes w,
    ?_, ?_⟩
  · obtain ⟨hstored, hsame⟩ := of_store_ok hstsm hstore
    rw [hsame]
    exact exists_load_of_stored hldsm hlength hshort hretains hstored
  · obtain ⟨hstored, hsame⟩ := of_store_ok hpsam hstore
    have hload := exists_load_of_stored hplam hlength hshort hretains hstored
    rw [hsame]
    exact ⟨rfl, hload⟩
  · exact ports_execute_send hstlm m
  · intro form hform
    rcases List.mem_pair.mp hform with rfl | rfl
    · exact memory_execute_store hstsm m
    · exact memory_execute_store hpsam m

/-- A machine whose transfer address is the last one, with three digits in `R30`, `R31` and `R0`. -/
private def turning : Machine where
  registers := ((RegisterFile.zero.set ⟨0⟩ ⟨30⟩ 1).set ⟨0⟩ ⟨31⟩ 2).set ⟨0⟩ ⟨0⟩ 3
  control := { sa := 0xFFFF }
  memory := ⟨"memory", [.store { range := .between 0 1 },
    .store { range := .between 0xFFFF 0x10000 }]⟩
  ports := ⟨"io", []⟩

theorem load_of_store_turning :
    ∃ stored loaded, execute ⟨0xDFC0, .stsm⟩ turning = .ok () stored ∧
      execute ⟨0xD8A7, .ldsm⟩ stored = .ok () loaded ∧
      loaded.reg ⟨5⟩ = 1 ∧ loaded.reg ⟨6⟩ = 2 ∧ loaded.reg ⟨7⟩ = 3 := by
  have hretains : ∀ a ∈ turning.windowAddresses ⟨⟨30⟩, 3⟩, turning.memory.Retains a.toUInt32 := by
    have haddresses : turning.windowAddresses ⟨⟨30⟩, 3⟩ = [0xFFFF, 0x0000] := rfl
    rw [haddresses, List.forall_mem_cons, List.forall_mem_singleton]
    exact ⟨⟨_, rfl, rfl⟩, ⟨_, rfl, rfl⟩⟩
  obtain ⟨hloads, -, -⟩ := load_of_store (m := turning) 0xDFC0 0xD8A7 rfl rfl rfl hretains
  have hstore : execute ⟨0xDFC0, .stsm⟩ turning
      = .ok () (finalState (execute ⟨0xDFC0, .stsm⟩ turning)) := rfl
  obtain ⟨loaded, hload, hcopies⟩ := hloads _ hstore
  exact ⟨_, loaded, hstore, hload, hcopies.reg 0 (by decide), hcopies.reg 1 (by decide),
    hcopies.reg 2 (by decide)⟩

end Machine

/-! ## Streams -/

/-! ### How long a stream is -/

/-- The target of a call is the address of a word. -/
theorem Instruction.target12_even (inst : Instruction) : inst.target12 % 2 = 0 := by
  rw [← UInt16.toNat_inj, UInt16.toNat_mod, target12, UInt16.toNat_shiftLeft, Nat.shiftLeft_eq]
  change (inst.word &&& 0x0FFF).toNat * 2 % 2 ^ 16 % 2 = 0
  omega

/-- A streaming routine sends a byte for every word between its entry and the end of the block. -/
theorem Routine.ofTarget_of_streaming {target : UInt16} (hstart : streamStart ≤ target)
    (hend : target < streamEnd) (heven : target % 2 = 0) :
    ofTarget target = .stream ((streamEnd.toNat - target.toNat) / 2) := by
  rw [ofTarget, if_pos ⟨hstart, hend, heven⟩, UInt16.toNat_div,
    UInt16.toNat_sub_of_le _ _ (UInt16.le_of_lt hend)]
  rfl

namespace Machine

open Bus (writeAll)

variable {m : Machine} {bytes : List UInt8} {ports : Bus} {f : Fault}

/-! ### The accesses of a stream -/

/-- The first bytes of a stream are fetched and taken by the data port, which leaves the ports as
told. -/
structure Streams (m : Machine) (bytes : List UInt8) (ports : Bus) : Prop where
  /-- The bytes stand in memory from the transfer address upwards. -/
  fetched : ∀ j (hj : j < bytes.length),
    m.memoryByte (m.control.sa + UInt16.ofNat j) = .ok bytes[j]
  /-- The data port takes them in this order. -/
  taken : writeAll (toDataPort bytes) m.ports = .ok () ports

/-- Once `sent` bytes were sent, an access for the next byte fails: the byte cannot be fetched, or
the data port does not take it. -/
def BreaksOff (m : Machine) (sent : ℕ) (ports : Bus) (f : Fault) : Prop :=
  m.memoryByte (m.control.sa + UInt16.ofNat sent) = .error f ∨
    ∃ byte, m.memoryByte (m.control.sa + UInt16.ofNat sent) = .ok byte ∧
      Bus.write dataPort byte ports = .error f ports

theorem streams_nil (m : Machine) : m.Streams [] m.ports := ⟨nofun, rfl⟩

theorem Streams.tail {byte : UInt8} (h : m.Streams (byte :: bytes) ports) :
    ∃ next, Bus.write dataPort byte m.ports = .ok () next ∧
      ({ m with ports := next }.advance 1).Streams bytes ports := by
  obtain ⟨_, next, hfirst, hrest⟩ := Faulting.exists_of_bind_ok h.taken
  refine ⟨next, hfirst, fun j hj ↦ ?_, hrest⟩
  change m.memoryByte (m.control.sa + UInt16.ofNat 1 + UInt16.ofNat j) = _
  rw [add_ofNat_add, Nat.add_comm]
  exact h.fetched (j + 1) (Nat.succ_lt_succ hj)

theorem Streams.concat (h : m.Streams bytes ports) {byte : UInt8} {next : Bus}
    (hfetch : m.memoryByte (m.control.sa + UInt16.ofNat bytes.length) = .ok byte)
    (hwrite : Bus.write dataPort byte ports = .ok () next) :
    m.Streams (bytes ++ [byte]) next where
  fetched j hj := by
    rw [List.length_append, List.length_singleton] at hj
    rcases Nat.lt_succ_iff_lt_or_eq.mp hj with hlt | rfl
    · rw [List.getElem_append_left hlt]
      exact h.fetched j hlt
    · rw [List.getElem_concat_length rfl]
      exact hfetch
  taken := by
    rw [toDataPort, List.map_append]
    exact Bus.writeAll_append_of_ok h.taken (Faulting.bind_of_ok hwrite)

/-- A stream goes on from behind the bytes that it has sent. -/
theorem stream_of_streams (h : m.Streams bytes ports) (more : ℕ) :
    stream (bytes.length + more) m = stream more { m.advance bytes.length with ports } := by
  -- over all machines, since the transfer address moves on with every byte
  induction bytes generalizing m with
  | nil =>
    cases h.taken
    rw [List.length_nil, Nat.zero_add, advance_zero]
  | cons byte bytes ih =>
    obtain ⟨next, hwrite, htail⟩ := h.tail
    have hfirst := h.fetched 0 (Nat.succ_pos _)
    rw [show m.control.sa + UInt16.ofNat 0 = m.control.sa from UInt16.add_zero _] at hfirst
    have hfetch : Faulting.ask (fun m : Machine ↦ m.memoryByte m.control.sa) m = .ok byte m :=
      Faulting.ask_of_ok hfirst
    have hsend : onPorts (Bus.write dataPort byte) m = .ok () { m with ports := next } := by
      rw [onPorts_apply, hwrite]
    rw [List.length_cons, Nat.add_right_comm, stream, Faulting.bind_of_ok hfetch,
      Faulting.bind_of_ok hsend, Faulting.bind_of_ok (Faulting.update_apply _ _), ih htail,
      Nat.add_comm bytes.length, ← advance_advance]
    rfl

theorem stream_of_breaksOff (h : m.Streams bytes ports) (hbreak : m.BreaksOff bytes.length ports f)
    {count : ℕ} (hcount : bytes.length < count) :
    stream count m = .error f { m.advance bytes.length with ports } := by
  obtain ⟨more, rfl⟩ := Nat.exists_eq_add_of_lt hcount
  rw [Nat.add_assoc, stream_of_streams h, stream]
  rcases hbreak with hfetch | ⟨byte, hfetch, hwrite⟩
  · exact Faulting.bind_of_error (Faulting.ask_of_error hfetch)
  · have hask : Faulting.ask (fun m : Machine ↦ m.memoryByte m.control.sa)
        { m.advance bytes.length with ports } = .ok byte { m.advance bytes.length with ports } :=
      Faulting.ask_of_ok hfetch
    have hsend : onPorts (Bus.write dataPort byte) { m.advance bytes.length with ports }
        = .error f { m.advance bytes.length with ports } := by
      rw [onPorts_apply, hwrite]
    rw [Faulting.bind_of_ok hask, Faulting.bind_of_error hsend]

theorem exists_streams (m : Machine) (count : ℕ) : ∃ bytes ports, m.Streams bytes ports ∧
    (bytes.length = count ∨ bytes.length < count ∧ ∃ f, m.BreaksOff bytes.length ports f) := by
  induction count with
  | zero => exact ⟨[], m.ports, streams_nil m, .inl rfl⟩
  | succ count ih =>
    obtain ⟨bytes, ports, hstreams, hsent | ⟨hshort, hbreak⟩⟩ := ih
    · subst hsent
      cases hfetch : m.memoryByte (m.control.sa + UInt16.ofNat bytes.length) with
      | error f =>
        exact ⟨bytes, ports, hstreams, .inr ⟨Nat.lt_succ_self _, f, .inl hfetch⟩⟩
      | ok byte =>
        cases hwrite : Bus.write dataPort byte ports with
        | error f ports' =>
          obtain rfl := Bus.eq_of_write_error hwrite
          exact ⟨bytes, ports', hstreams,
            .inr ⟨Nat.lt_succ_self _, f, .inr ⟨byte, hfetch, hwrite⟩⟩⟩
        | ok u next =>
          exact ⟨bytes ++ [byte], next, hstreams.concat hfetch hwrite, .inl (by simp)⟩
    · exact ⟨bytes, ports, hstreams, .inr ⟨hshort.trans (Nat.lt_succ_self _), hbreak⟩⟩

/-! ### Calls of streaming routines -/

theorem execute_of_streaming (m : Machine) {inst : Instruction} {count : ℕ}
    (hform : inst.form = .call) (hroutine : Routine.ofTarget inst.target12 = .stream count) :
    execute inst m = (stream count >>= fun _ ↦
      Faulting.update (·.complete ⟨.keep, m.following⟩)) m := by
  have hop : inst.operation = .call inst.target12 := by rw [Instruction.operation, hform]
  rw [execute, hop]
  change (call inst.target12 m.following >>= fun completion ↦
    Faulting.update (·.complete completion)) m = _
  rw [call, hroutine]
  dsimp only
  rw [bind_assoc]
  rfl

/-- **A streaming call sends its bytes one by one.** If all accesses succeed, all bytes are sent and
the transfer address stands behind them. Otherwise it stands at the first byte that was not sent,
the bytes before it were sent, and the fault is the one of the access that failed. Nothing else
changes, and one of the two is always the case. -/
theorem execute_stream (m : Machine) (inst : Instruction) (hform : inst.form = .call)
    (hstart : streamStart ≤ inst.target12) (hend : inst.target12 < streamEnd) :
    let count := (streamEnd.toNat - inst.target12.toNat) / 2
    (∀ bytes ports, m.Streams bytes ports → bytes.length = count →
      execute inst m = .ok () { m with
        control := { m.control with
          pc := m.control.pc + 2, sa := m.control.sa + UInt16.ofNat count }
        ports }) ∧
    (∀ bytes ports f, m.Streams bytes ports → bytes.length < count →
      m.BreaksOff bytes.length ports f →
      execute inst m = .error f { m with
        control := { m.control with sa := m.control.sa + UInt16.ofNat bytes.length }
        ports }) ∧
    ∃ bytes ports, m.Streams bytes ports ∧
      (bytes.length = count ∨ bytes.length < count ∧ ∃ f, m.BreaksOff bytes.length ports f) := by
  intro count
  have hexec := execute_of_streaming m hform
    (Routine.ofTarget_of_streaming hstart hend inst.target12_even)
  refine ⟨fun bytes ports hstreams hlength ↦ ?_, fun bytes ports f hstreams hlength hbreak ↦ ?_,
    exists_streams m count⟩
  · have hstream := stream_of_streams hstreams 0
    rw [Nat.add_zero, hlength] at hstream
    rw [hexec, Faulting.bind_of_ok hstream]
    rfl
  · rw [hexec, Faulting.bind_of_error (stream_of_breaksOff hstreams hbreak hlength)]
    rfl

/-- A machine with two bytes at the end of the memory, where the transfer address stands. -/
private def streaming (others : List Device) : Machine where
  control := { sa := 0xFFFE }
  memory := ⟨"memory",
    .store { range := .between 0xFFFE 0x10000, cells := #v[0x10, 0x21] } :: others⟩
  ports := ⟨"io", [.latch { range := .between 0 2 }]⟩

/-- Three bytes are to be sent. If there is one at the beginning of the memory, they all are;
otherwise the stream stops there. -/
theorem execute_stream_turning :
    let inst : Instruction := ⟨0xABCD, .call⟩
    let whole := streaming [.store { range := .between 0 1, cells := #v[0x32] }]
    let torn := streaming []
    inst.form = .call ∧ streamStart ≤ inst.target12 ∧ inst.target12 < streamEnd ∧
      (∃ ports, whole.Streams [0x10, 0x21, 0x32] ports ∧
        execute inst whole = .ok () { whole with
          control := { whole.control with pc := 0x1802, sa := 0x0001 }, ports }) ∧
      ∃ ports, torn.Streams [0x10, 0x21] ports ∧ torn.BreaksOff 2 ports (.unmappedAddress 0) ∧
        execute inst torn = .error (.unmappedAddress 0) { torn with
          control := { torn.control with sa := 0x0000 }, ports } := by
  intro inst whole torn
  have hstart : streamStart ≤ inst.target12 := by decide
  have hend : inst.target12 < streamEnd := by decide
  obtain ⟨hall, -, -⟩ := execute_stream whole inst rfl hstart hend
  obtain ⟨-, hpart, -⟩ := execute_stream torn inst rfl hstart hend
  have hwhole : ∃ ports, whole.Streams [0x10, 0x21, 0x32] ports :=
    ⟨_, by decide, rfl⟩
  have htorn : ∃ ports, torn.Streams [0x10, 0x21] ports :=
    ⟨_, by decide, rfl⟩
  obtain ⟨ports, hstreams⟩ := hwhole
  obtain ⟨ports', hstreams'⟩ := htorn
  have hbreak : torn.BreaksOff 2 ports' (.unmappedAddress 0) := .inl (by decide)
  have hsent := hall _ _ hstreams (by decide)
  have hstopped := hpart _ _ _ hstreams' (by decide) hbreak
  have hpc : whole.control.pc + 2 = 0x1802 := by decide
  have hsa : whole.control.sa
      + UInt16.ofNat ((streamEnd.toNat - inst.target12.toNat) / 2) = 0x0001 := by decide
  have hsa' : torn.control.sa + UInt16.ofNat [(0x10 : UInt8), 0x21].length = 0x0000 := by decide
  rw [hpc, hsa] at hsent
  rw [hsa'] at hstopped
  exact ⟨rfl, hstart, hend, ⟨ports, hstreams, hsent⟩, ports', hstreams', hbreak, hstopped⟩

end Machine

end CalcWatch
