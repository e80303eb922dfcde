import CalcWatch.Machine
import CalcWatch.Proofs.Bus.Access
import CalcWatch.Proofs.Registers.Cells
import Mathlib.Data.Int.Notation

/-!
# What the parts of an operation leave behind

Calls, returns and transfers are made of accesses to the two buses and of changes that cannot fail.
For each of them there is one statement of what it leaves when it succeeds and one of what it leaves
when it fails; after that nobody needs to look inside.

## Success

A part that succeeds is told by an equation: the machine that it leaves is the machine that it found
with some of its fields replaced. Where there are bytes to be written, the equation names them. They
are settled before the first one is written, since nothing that a part writes is read by it again; a
stream alone reads while it writes, but it reads one bus and writes the other.

## Failure

A part that fails has been refused an access, and `Refuses` lists the accesses that programs make.
What has been done by then is a number of whole bytes: of a store, those before the refused one, and
of a stream, those before the one that could not be fetched or sent, with the transfer address moved
on past them. A push that is refused has lowered the stack pointer as well. Elsewhere the reads come
first, so a load, a return or an input that is refused leaves the machine as it was.
-/

namespace CalcWatch.Machine

open Bus (Output ready writeAll write)

variable {α : Type} {m m' : Machine} {f : Fault}

/-! ## Accesses to the buses -/

theorem onMemory_apply (use : Faulting Bus α) (m : Machine) :
    onMemory use m = match use m.memory with
      | .ok x memory => .ok x { m with memory }
      | .error f memory => .error f { m with memory } := rfl

theorem onPorts_apply (use : Faulting Bus α) (m : Machine) :
    onPorts use m = match use m.ports with
      | .ok x ports => .ok x { m with ports }
      | .error f ports => .error f { m with ports } := rfl

theorem exists_of_onMemory_ok {use : Faulting Bus α} {x : α} (h : onMemory use m = .ok x m') :
    ∃ memory, use m.memory = .ok x memory ∧ m' = { m with memory } := by
  rw [onMemory_apply] at h
  split at h <;> cases h
  exact ⟨_, ‹_›, rfl⟩

theorem exists_of_onMemory_error {use : Faulting Bus α} (h : onMemory use m = .error f m') :
    ∃ memory, use m.memory = .error f memory ∧ m' = { m with memory } := by
  rw [onMemory_apply] at h
  split at h <;> cases h
  exact ⟨_, ‹_›, rfl⟩

theorem exists_of_onPorts_ok {use : Faulting Bus α} {x : α} (h : onPorts use m = .ok x m') :
    ∃ ports, use m.ports = .ok x ports ∧ m' = { m with ports } := by
  rw [onPorts_apply] at h
  split at h <;> cases h
  exact ⟨_, ‹_›, rfl⟩

theorem exists_of_onPorts_error {use : Faulting Bus α} (h : onPorts use m = .error f m') :
    ∃ ports, use m.ports = .error f ports ∧ m' = { m with ports } := by
  rw [onPorts_apply] at h
  split at h <;> cases h
  exact ⟨_, ‹_›, rfl⟩

theorem safe_proceed (flags : FlagUpdate) : Faulting.Safe (proceed flags) :=
  Faulting.safe_view _

/-! ## Accesses that are refused -/

/-- An access that a program makes to one of the buses fails with this fault. Memory has addresses
of sixteen bits, and programs use two of the ports. -/
inductive Refuses (m : Machine) (f : Fault) : Prop where
  /-- A byte of memory that cannot be read. -/
  | read (a : UInt16) (h : m.memoryByte a = .error f)
  /-- A byte that memory does not take. -/
  | write (a : UInt16) (value : UInt8) (h : write a.toUInt32 value m.memory = .error f m.memory)
  /-- There is nothing to be received. -/
  | receive (h : m.ports.read dataPort = .error f)
  /-- A byte that a port does not take. -/
  | send {port : UInt32} (value : UInt8) (hport : port = addressPort ∨ port = dataPort)
      (h : write port value m.ports = .error f m.ports)

theorem refuses_of_two_bytes {a b : UInt16} {join : UInt8 → UInt8 → UInt16}
    (h : (do let first ← m.memoryByte a; let second ← m.memoryByte b; pure (join first second))
      = Except.error f) : m.Refuses f := by
  cases hfirst : m.memoryByte a with
  | error g =>
    rw [hfirst] at h
    cases h
    exact .read a hfirst
  | ok first =>
    cases hsecond : m.memoryByte b with
    | error g =>
      rw [hfirst, hsecond] at h
      cases h
      exact .read b hsecond
    | ok second =>
      rw [hfirst, hsecond] at h
      cases h

theorem refuses_of_fetch {a : UInt16} (h : m.fetch a = .error f) : m.Refuses f :=
  refuses_of_two_bytes h

theorem refuses_of_topWord (h : m.topWord = .error f) : m.Refuses f := refuses_of_two_bytes h

theorem refuses_of_mapM {as : List UInt16} (h : as.mapM m.memoryByte = .error f) :
    m.Refuses f := by
  obtain ⟨_, refused, _, -, -, hrefused⟩ := exists_of_mapM_error h
  exact .read refused hrefused

/-! ## Where bytes are stored -/

theorem exists_of_mem_wordStores {sp word : UInt16} {store : UInt32 × UInt8}
    (h : store ∈ wordStores sp word) : ∃ a : UInt16, store.1 = a.toUInt32 := by
  rw [wordStores, List.mem_cons, List.mem_singleton] at h
  rcases h with rfl | rfl
  · exact ⟨sp, rfl⟩
  · exact ⟨sp + 1, rfl⟩

theorem exists_of_mem_windowStores {w : Window} {store : UInt32 × UInt8}
    (h : store ∈ m.windowStores w) : ∃ a : UInt16, store.1 = a.toUInt32 := by
  obtain ⟨a, -, ha⟩ := List.mem_map.mp (List.of_mem_zip h).1
  exact ⟨a, ha.symm⟩

theorem refuses_of_store {stores stored rest : List (UInt32 × UInt8)} {refused : UInt32 × UInt8}
    (haddress : ∀ store ∈ stores, ∃ a : UInt16, store.1 = a.toUInt32)
    (hstores : stores = stored ++ refused :: rest)
    (h : write refused.1 refused.2 m.memory = .error f m.memory) : m.Refuses f := by
  obtain ⟨a, ha⟩ := haddress refused (hstores ▸ List.mem_append_cons_self)
  rw [ha] at h
  exact .write a refused.2 h

/-! ## The stack -/

theorem push_apply (word : UInt16) (m : Machine) :
    push word m = onMemory (writeAll (wordStores (m.control.sp - 2) word))
      (m.setSp (m.control.sp - 2)) := rfl

theorem exists_of_push_ok {word : UInt16} (h : push word m = .ok () m') :
    ∃ memory, writeAll (wordStores (m.control.sp - 2) word) m.memory = .ok () memory ∧
      m' = { m.setSp (m.control.sp - 2) with memory } :=
  exists_of_onMemory_ok (push_apply word m ▸ h)

/-- A push that fails leaves the stack pointer lowered, and at most the low byte written. -/
theorem exists_of_push_error {word : UInt16} (h : push word m = .error f m') :
    ∃ stored refused rest memory,
      wordStores (m.control.sp - 2) word = stored ++ refused :: rest ∧
      writeAll stored m.memory = .ok () memory ∧
      write refused.1 refused.2 memory = .error f memory ∧
      m' = { m.setSp (m.control.sp - 2) with memory } := by
  obtain ⟨memory, hwrite, rfl⟩ := exists_of_onMemory_error (push_apply word m ▸ h)
  obtain ⟨stored, refused, rest, hstores, hstored, hrefused⟩ := Bus.exists_of_writeAll_error hwrite
  exact ⟨stored, refused, rest, memory, hstores, hstored, hrefused, rfl⟩

theorem push_of_stored {word : UInt16} {memory : Bus}
    (h : writeAll (wordStores (m.control.sp - 2) word) m.memory = .ok () memory) :
    push word m = .ok () { m.setSp (m.control.sp - 2) with memory } := by
  have hwrite : writeAll (wordStores (m.control.sp - 2) word)
      (m.setSp (m.control.sp - 2)).memory = .ok () memory := h
  rw [push_apply, onMemory_apply, hwrite]

theorem eq_of_pop_ok {word : UInt16} (h : pop m = .ok word m') :
    m.topWord = .ok word ∧ m' = m.setSp (m.control.sp + 2) := by
  obtain ⟨top, t, hask, hrest⟩ := Faulting.exists_of_bind_ok h
  obtain ⟨htop, rfl⟩ := Faulting.eq_of_ask_ok hask
  cases hrest
  exact ⟨htop, rfl⟩

theorem eq_of_pop_error (h : pop m = .error f m') : m.topWord = .error f ∧ m' = m := by
  have hask := Faulting.error_of_bind_error
    (fun word ↦ (Faulting.safe_update _).bind fun _ ↦ Faulting.safe_pure word) h
  exact Faulting.eq_of_ask_error hask

theorem toNat_joined (high low : UInt8) :
    (high.toUInt16 <<< 8 ||| low.toUInt16).toNat = 256 * high.toNat + low.toNat := by
  have hshift : (high.toUInt16 <<< 8).toNat = 2 ^ 8 * high.toNat := by
    have hlt := high.toNat_lt
    simp only [UInt16.toNat_shiftLeft, UInt8.toNat_toUInt16, Nat.shiftLeft_eq]
    change high.toNat * 2 ^ 8 % 2 ^ 16 = _
    omega
  rw [UInt16.toNat_or, hshift, UInt8.toNat_toUInt16,
    ← Nat.two_pow_add_eq_or_of_lt low.toNat_lt]

theorem word_of_bytes (p : UInt16) :
    (p >>> 8).toUInt8.toUInt16 <<< 8 ||| p.toUInt8.toUInt16 = p := by
  have hlt := p.toNat_lt
  have hhigh : (p >>> 8).toUInt8.toNat = p.toNat / 256 % 256 := by
    rw [UInt16.toNat_toUInt8, UInt16.toNat_shiftRight, Nat.shiftRight_eq_div_pow]
    rfl
  have hlow : p.toUInt8.toNat = p.toNat % 256 := rfl
  rw [← UInt16.toNat_inj, toNat_joined, hhigh, hlow]
  omega

/-- A signed word is carried as the word that it is congruent to. -/
theorem toNat_toUInt16 (word : Int16) : (word.toUInt16.toNat : ℤ) = word.toInt % 65536 := by
  have hword : word.toInt = (word.toUInt16.toNat : ℤ).bmod (2 ^ 16) := BitVec.toInt_eq_toNat_bmod _
  have hlt := word.toUInt16.toNat_lt
  rw [hword]
  exact (Int.emod_eq_of_lt (by omega) (by omega)).symm.trans Int.bmod_emod.symm

theorem topWord_of_bytes {p : UInt16} (hlow : m.memoryByte m.control.sp = .ok p.toUInt8)
    (hhigh : m.memoryByte (m.control.sp + 1) = .ok (p >>> 8).toUInt8) : m.topWord = .ok p := by
  rw [topWord, hlow, hhigh]
  exact congrArg Except.ok (word_of_bytes p)

theorem pop_of_topWord {p : UInt16} (h : m.topWord = .ok p) :
    pop m = .ok p (m.setSp (m.control.sp + 2)) := by
  rw [pop, Faulting.bind_of_ok (Faulting.ask_of_ok h)]
  rfl

/-! ## Windows in memory -/

/-- Filling a window assigns the digits to its registers, the first digit to the top register. -/
theorem fillWindow_eq (m : Machine) (w : Window) (digits : List UInt8) :
    m.fillWindow w digits = { m with
      registers :=
        m.registers.assign (m.bank .current) (m.bank .current) (w.fillSteps digits) } := by
  have hfold : ∀ (cells : List (Reg × UInt8)) (m : Machine),
      cells.foldl (fun m cell ↦ m.setReg cell.1 cell.2) m = { m with
        registers := m.registers.assign (m.bank .current) (m.bank .current)
          (cells.map fun cell ↦ ⟨cell.1, .immediate cell.2⟩) } := by
    -- the bank stays the current one throughout
    intro cells
    induction cells with
    | nil => exact fun m ↦ rfl
    | cons cell cells ih => exact fun m ↦ ih (m.setReg cell.1 cell.2)
  exact hfold _ m

/-- The transfer address behind a window, or where it is. -/
def saPast (m : Machine) (w : Window) (advance : Bool) : UInt16 :=
  if advance then m.control.sa + UInt16.ofNat w.byteLength else m.control.sa

theorem advancePast_apply (w : Window) (advance : Bool) (m : Machine) :
    advancePast w advance m
      = .ok () { m with control := { m.control with sa := m.saPast w advance } } := by
  cases advance <;> rfl

theorem safe_advancePast (w : Window) (advance : Bool) : Faulting.Safe (advancePast w advance) :=
  Faulting.safe_update _

variable {w : Window} {advance : Bool}

theorem storeWindow_apply (w : Window) (advance : Bool) (m : Machine) :
    storeWindow w advance m
      = (onMemory (writeAll (m.windowStores w)) >>= fun _ ↦ advancePast w advance) m := rfl

theorem exists_of_storeWindow_ok (h : storeWindow w advance m = .ok () m') :
    ∃ memory, writeAll (m.windowStores w) m.memory = .ok () memory ∧
      m' = { m with control := { m.control with sa := m.saPast w advance }, memory } := by
  rw [storeWindow_apply] at h
  obtain ⟨_, _, hwrite, hadvance⟩ := Faulting.exists_of_bind_ok h
  obtain ⟨memory, hmemory, rfl⟩ := exists_of_onMemory_ok hwrite
  rw [advancePast_apply] at hadvance
  cases hadvance
  exact ⟨memory, hmemory, rfl⟩

/-- A store that fails has written the bytes before the failing one, and the transfer address has
not moved. -/
theorem exists_of_storeWindow_error (h : storeWindow w advance m = .error f m') :
    ∃ stored refused rest memory, m.windowStores w = stored ++ refused :: rest ∧
      writeAll stored m.memory = .ok () memory ∧
      write refused.1 refused.2 memory = .error f memory ∧ m' = { m with memory } := by
  rw [storeWindow_apply] at h
  have hwrite := Faulting.error_of_bind_error (fun _ ↦ safe_advancePast w advance) h
  obtain ⟨memory, hmemory, rfl⟩ := exists_of_onMemory_error hwrite
  obtain ⟨stored, refused, rest, hstores, hstored, hrefused⟩ := Bus.exists_of_writeAll_error hmemory
  exact ⟨stored, refused, rest, memory, hstores, hstored, hrefused, rfl⟩

theorem loadWindow_of_bytes {bytes : List UInt8}
    (h : (m.windowAddresses w).mapM m.memoryByte = .ok bytes) :
    loadWindow w advance m = .ok () { m with
      registers := (m.fillWindow w (unpack bytes w.length)).registers
      control := { m.control with sa := m.saPast w advance } } := by
  have hask : Faulting.ask (fun m : Machine ↦ (m.windowAddresses w).mapM m.memoryByte) m
      = .ok bytes m := Faulting.ask_of_ok h
  rw [loadWindow, Faulting.bind_of_ok hask, Faulting.bind_of_ok (Faulting.update_apply _ m),
    advancePast_apply, fillWindow_eq]
  rfl

theorem exists_of_loadWindow_ok (h : loadWindow w advance m = .ok () m') :
    ∃ bytes, (m.windowAddresses w).mapM m.memoryByte = .ok bytes ∧
      m' = { m with
        registers := (m.fillWindow w (unpack bytes w.length)).registers
        control := { m.control with sa := m.saPast w advance } } := by
  obtain ⟨bytes, t, hask, -⟩ := Faulting.exists_of_bind_ok h
  obtain ⟨hbytes, rfl⟩ := Faulting.eq_of_ask_ok hask
  rw [loadWindow_of_bytes hbytes] at h
  cases h
  exact ⟨bytes, hbytes, rfl⟩

theorem eq_of_loadWindow_error (h : loadWindow w advance m = .error f m') :
    (m.windowAddresses w).mapM m.memoryByte = .error f ∧ m' = m := by
  have hask := Faulting.error_of_bind_error
    (fun _ ↦ (Faulting.safe_update _).bind fun _ ↦ safe_advancePast w advance) h
  exact Faulting.eq_of_ask_error hask

/-! ## Bytes through the ports -/

theorem send_apply (payload : Payload) (m : Machine) :
    send payload m = onPorts (writeAll (toDataPort (m.payloadBytes payload))) m := rfl

theorem exists_of_send_ok {payload : Payload} (h : send payload m = .ok () m') :
    ∃ ports, writeAll (toDataPort (m.payloadBytes payload)) m.ports = .ok () ports ∧
      m' = { m with ports } :=
  exists_of_onPorts_ok (send_apply payload m ▸ h)

/-- A payload that is refused has been sent up to the byte that was refused. -/
theorem exists_of_send_error {payload : Payload} (h : send payload m = .error f m') :
    ∃ sent byte rest ports,
      toDataPort (m.payloadBytes payload) = sent ++ (dataPort, byte) :: rest ∧
      writeAll sent m.ports = .ok () ports ∧
      write dataPort byte ports = .error f ports ∧ m' = { m with ports } := by
  obtain ⟨ports, hports, rfl⟩ := exists_of_onPorts_error (send_apply payload m ▸ h)
  obtain ⟨sent, refused, rest, hstores, hsent, hrefused⟩ := Bus.exists_of_writeAll_error hports
  have hmem : refused ∈ toDataPort (m.payloadBytes payload) := hstores ▸ List.mem_append_cons_self
  obtain ⟨byte, -, rfl⟩ := List.mem_map.mp hmem
  exact ⟨sent, byte, rest, ports, hstores, hsent, hrefused, rfl⟩

theorem pointDisplay_apply (a : UInt16) (m : Machine) :
    pointDisplay a m = onPorts (write addressPort a.toUInt8)
      { m with control := { m.control with la := a } } := rfl

theorem exists_of_pointDisplay_ok {a : UInt16} (h : pointDisplay a m = .ok () m') :
    ∃ ports, write addressPort a.toUInt8 m.ports = .ok () ports ∧
      m' = { m with control := { m.control with la := a }, ports } :=
  exists_of_onPorts_ok (pointDisplay_apply a m ▸ h)

/-- The display address stays set if nothing takes the byte. -/
theorem eq_of_pointDisplay_error {a : UInt16} (h : pointDisplay a m = .error f m') :
    write addressPort a.toUInt8 m.ports = .error f m.ports ∧
      m' = { m with control := { m.control with la := a } } := by
  obtain ⟨ports, hports, rfl⟩ := exists_of_onPorts_error (pointDisplay_apply a m ▸ h)
  obtain rfl := Bus.eq_of_write_error hports
  exact ⟨hports, rfl⟩

theorem exists_of_receive_ok {high low : Reg} (h : receive high low m = .ok () m') :
    ∃ byte, m.ports.read dataPort = .ok byte ∧
      m' = (m.setReg high (byte >>> 4)).setReg low (byte &&& 0x0F) := by
  obtain ⟨byte, _, hask, hset⟩ := Faulting.exists_of_bind_ok h
  obtain ⟨hbyte, rfl⟩ := Faulting.eq_of_ask_ok hask
  cases hset
  exact ⟨byte, hbyte, rfl⟩

theorem eq_of_receive_error {high low : Reg} (h : receive high low m = .error f m') :
    m.ports.read dataPort = .error f ∧ m' = m :=
  Faulting.eq_of_ask_error (Faulting.error_of_bind_error (fun _ ↦ Faulting.safe_update _) h)

/-! ## Streams -/

/-- The bytes a stream sends, each of which has to be fetched from memory. -/
def streamOutputs (m : Machine) (count : ℕ) : List Output :=
  (List.range count).map fun j ↦ (dataPort, m.memoryByte (m.control.sa + UInt16.ofNat j))

theorem exists_of_mem_streamOutputs {count : ℕ} {output : Output}
    (h : output ∈ m.streamOutputs count) : ∃ a, output = (dataPort, m.memoryByte a) := by
  obtain ⟨j, -, rfl⟩ := List.mem_map.mp h
  exact ⟨_, rfl⟩

theorem add_ofNat_add (a : UInt16) (i j : ℕ) :
    a + UInt16.ofNat i + UInt16.ofNat j = a + UInt16.ofNat (i + j) := by
  rw [UInt16.ofNat_add, UInt16.add_assoc]

theorem advance_zero (m : Machine) : m.advance 0 = m := by
  have hsa : m.control.sa + UInt16.ofNat 0 = m.control.sa := UInt16.add_zero _
  rw [advance, hsa]

theorem advance_advance (m : Machine) (a b : ℕ) : (m.advance a).advance b = m.advance (a + b) := by
  simp only [advance, add_ofNat_add]

theorem streamOutputs_succ (m : Machine) (ports : Bus) (count : ℕ) :
    m.streamOutputs (count + 1) = (dataPort, m.memoryByte m.control.sa)
      :: ({ m with ports }.advance 1).streamOutputs count := by
  have hfirst : m.control.sa + UInt16.ofNat 0 = m.control.sa := UInt16.add_zero _
  rw [streamOutputs, List.range_succ_eq_map, List.map_cons, List.map_map, hfirst]
  refine congrArg _ (List.map_congr_left fun j _ ↦ ?_)
  rw [Function.comp, Nat.succ_eq_one_add, ← add_ofNat_add]
  rfl

theorem exists_of_stream_ok {count : ℕ} (h : stream count m = .ok () m') :
    ∃ sent ports, m.streamOutputs count = ready sent ∧
      writeAll sent m.ports = .ok () ports ∧ m' = { m.advance count with ports } := by
  -- over all machines, since the transfer address moves on with every byte
  induction count generalizing m with
  | zero =>
    cases h
    exact ⟨[], m'.ports, rfl, rfl, (advance_zero m').symm⟩
  | succ count ih =>
    obtain ⟨byte, m, hask, hrest⟩ := Faulting.exists_of_bind_ok h
    obtain ⟨hbyte, rfl⟩ := Faulting.eq_of_ask_ok hask
    obtain ⟨_, _, hport, hrest⟩ := Faulting.exists_of_bind_ok hrest
    obtain ⟨ports, hwrite, rfl⟩ := exists_of_onPorts_ok hport
    obtain ⟨sent, ports', houtputs, hsent, rfl⟩ := ih hrest
    refine ⟨(dataPort, byte) :: sent, ports', ?_, ?_, ?_⟩
    · rw [streamOutputs_succ _ ports, houtputs, hbyte]
      rfl
    · rw [Bus.writeAll_cons, Faulting.bind_of_ok hwrite]
      exact hsent
    · rw [advance_advance, Nat.add_comm]
      rfl

/-- A stream that fails has sent the bytes before the failing one, and the transfer address stands
at the failing one. -/
theorem exists_of_stream_error {count : ℕ} (h : stream count m = .error f m') :
    ∃ sent refused rest ports, m.streamOutputs count = ready sent ++ refused :: rest ∧
      writeAll sent m.ports = .ok () ports ∧
      (refused.2 = .error f ∨
        ∃ byte, refused.2 = .ok byte ∧ write refused.1 byte ports = .error f ports) ∧
      m' = { m.advance sent.length with ports } := by
  induction count generalizing m with
  | zero => cases h
  | succ count ih =>
    rcases Faulting.error_or_of_bind_error h with hask | ⟨byte, m, hask, hrest⟩
    · obtain ⟨hbyte, rfl⟩ := Faulting.eq_of_ask_error hask
      exact ⟨[], _, _, m'.ports, streamOutputs_succ m' m'.ports count, rfl, .inl hbyte,
        (advance_zero m').symm⟩
    obtain ⟨hbyte, rfl⟩ := Faulting.eq_of_ask_ok hask
    rcases Faulting.error_or_of_bind_error hrest with hport | ⟨_, _, hport, hrest⟩
    · obtain ⟨ports, hwrite, rfl⟩ := exists_of_onPorts_error hport
      obtain rfl := Bus.eq_of_write_error hwrite
      exact ⟨[], (dataPort, m.memoryByte m.control.sa), _, m.ports,
        streamOutputs_succ m m.ports count, rfl, .inr ⟨byte, hbyte, hwrite⟩,
        (advance_zero m).symm⟩
    obtain ⟨ports, hwrite, rfl⟩ := exists_of_onPorts_ok hport
    obtain ⟨sent, refused, rest, ports', houtputs, hsent, hrefused, rfl⟩ := ih hrest
    refine ⟨(dataPort, byte) :: sent, refused, rest, ports', ?_, ?_, hrefused, ?_⟩
    · rw [streamOutputs_succ _ ports, houtputs, hbyte]
      rfl
    · rw [Bus.writeAll_cons, Faulting.bind_of_ok hwrite]
      exact hsent
    · rw [advance_advance, Nat.add_comm]
      rfl

end CalcWatch.Machine
