import CalcWatch.Proofs.Ports.Record

/-!
# What a bus takes and what it refuses

An access of a bus either succeeds, and then the bus obeys the law of a memory, or it is refused,
and then the fault says why. Both are settled by the devices that are attached.

## What a fault of a bus says

A bus refuses an access because of the devices that are attached to it, and the fault says what is
in the way. That can be checked against the bus: no device claims the address, or the first one that
does may not be read, may not be written, or has no room for the value. What the devices keep does
not matter, so a fault stays true while bytes are written.

## One byte and what is read afterwards

The law of a memory, for a bus: a byte that was taken is what is read at its address, and nothing is
different anywhere else. Ports are the exception, since they keep what is sent to them on record and
show something else. A byte that was not taken has changed nothing, and the fault tells which of
three things was in the way.

## Images

An image is placed byte by byte, and every byte goes to the device that serves its own address, so
the first byte of an image and the rest of it are two images: `Bus.load_cons`. Placing a byte does
not change which devices there are, so whether the rest can be placed does not depend on whether the
first byte has been. That gives all there is to say by induction on the bytes: what a load that
succeeded shows afterwards, where a load that failed has stopped, and that an image may be placed in
parts.
-/

namespace CalcWatch

/-! ## What a fault of a bus says -/

/-! ### The address of a fault -/

namespace Fault

def address? : Fault → Option UInt32
  | unmappedAddress a | outOfRangeValue a _ | readDenied a | writeDenied a => some a
  | illegalOpcode _ | illegalRegisterName _ | illegalRegisterValue _ _ => none

/-- The faults of the buses are those that carry an address. -/
theorem isSome_address? (f : Fault) : f.address?.isSome = true ↔ f.faultClass = .bus := by
  cases f <;> simp [address?, faultClass]

end Fault

/-! ### What a device refuses -/

namespace Device

variable {device : Device} {a : UInt32} {value : UInt8} {f : Fault}

/-- A device can be read wherever it claims an address. -/
theorem exists_read_of_contains (h : device.contains a = true) :
    ∃ value, device.read a = .ok value := by
  obtain ⟨content, hcontent⟩ := exists_content? h
  exact ⟨content.shown, by rw [device.read_eq_content?, hcontent]⟩

/-- Where it claims an address, a device refuses a byte only if it is too large for a digit. -/
theorem check_eq_error_iff (hclaims : device.contains a = true) : device.check a value = .error f ↔
    ∃ cells, device = .store cells ∧ cells.width = .nibble ∧ 0x0F < value ∧
      f = .outOfRangeValue a value := by
  cases device with
  | store cells =>
    have hcell : cells.range.contains a = true := hclaims
    rw [check, CellStore.check, if_pos hcell]
    constructor
    · intro h
      split at h
      · cases h
      · rename_i hlarge
        cases h
        cases hwidth : cells.width with
        | nibble =>
          rw [hwidth] at hlarge
          exact ⟨cells, rfl, hwidth, UInt8.not_le.mp hlarge, rfl⟩
        | byte =>
          rw [hwidth] at hlarge
          exact absurd (UInt8.le_iff_toNat_le.mpr (Nat.le_of_lt_succ value.toNat_lt)) hlarge
    · rintro ⟨_, heq, hwidth, hlarge, rfl⟩
      cases heq
      rw [hwidth, if_neg (UInt8.not_le.mpr hlarge : ¬value ≤ CellWidth.nibble.largest)]
  | latch ports =>
    have hport : ports.range.contains a = true := hclaims
    rw [check, PortLatch.check, if_pos hport]
    simp

end Device

/-! ### What a bus refuses -/

namespace Bus

variable {bus bus' : Bus} {a : UInt32} {value : UInt8} {f : Fault}

/-- The bus is as a fault says. -/
def BearsOut (bus : Bus) : Fault → Prop
  | .unmappedAddress a => ∀ device ∈ bus.devices, device.contains a = false
  | .readDenied a => ∃ device, bus.serving? a = some device ∧ device.readable = false
  | .writeDenied a => ∃ device, bus.serving? a = some device ∧ device.writable = false
  | .outOfRangeValue a value =>
    ∃ cells, bus.serving? a = some (.store cells) ∧ cells.width = .nibble ∧ 0x0F < value
  | .illegalOpcode _ | .illegalRegisterName _ | .illegalRegisterValue _ _ => False

theorem bearsOut_unmappedAddress_iff :
    bus.BearsOut (.unmappedAddress a) ↔ bus.serving? a = none := by
  simp only [BearsOut, serving?, List.find?_eq_none, Bool.not_eq_true]

/-- What the devices keep does not matter. -/
theorem BearsOut.of_blank (hblank : bus'.blank = bus.blank) (h : bus.BearsOut f) :
    bus'.BearsOut f := by
  cases f with
  | unmappedAddress a =>
    rw [bearsOut_unmappedAddress_iff] at h ⊢
    exact serving?_eq_none_of_blank hblank h
  | readDenied a =>
    obtain ⟨device, hserving, hdenied⟩ := h
    obtain ⟨-, device', -, -, hserving', hsame⟩ := exists_serving?_of_blank hblank hserving
    refine ⟨device', hserving', ?_⟩
    rwa [Device.eq_of_blank Device.readable Device.readable_blank hsame]
  | writeDenied a =>
    obtain ⟨device, hserving, hdenied⟩ := h
    obtain ⟨-, device', -, -, hserving', hsame⟩ := exists_serving?_of_blank hblank hserving
    refine ⟨device', hserving', ?_⟩
    rwa [Device.eq_of_blank Device.writable Device.writable_blank hsame]
  | outOfRangeValue a value =>
    obtain ⟨cells, hserving, hwidth, hlarge⟩ := h
    obtain ⟨cells', hserving', hwidth', -⟩ := exists_store_of_blank hblank hserving
    exact ⟨cells', hserving', hwidth'.trans hwidth, hlarge⟩
  | illegalOpcode | illegalRegisterName | illegalRegisterValue => exact h

theorem bearsOut_of_read_error (h : bus.read a = .error f) :
    f.address? = some a ∧ bus.BearsOut f := by
  cases hserving : bus.serving? a with
  | none =>
    rw [read_of_not_served hserving] at h
    cases h
    exact ⟨rfl, bearsOut_unmappedAddress_iff.mpr hserving⟩
  | some device =>
    rw [read_of_serving hserving] at h
    split at h
    · obtain ⟨value, hread⟩ := Device.exists_read_of_contains (contains_of_serving hserving)
      rw [hread] at h
      cases h
    · rename_i hdenied
      cases h
      exact ⟨rfl, device, hserving, Bool.eq_false_iff.mpr hdenied⟩

/-- A byte is refused if no device claims its address, or if the first one that does may not be
written or has no room for the byte. -/
theorem write_eq_error_iff : write a value bus = .error f bus' ↔ bus' = bus ∧
    (bus.serving? a = none ∧ f = .unmappedAddress a ∨
      (∃ device, bus.serving? a = some device ∧ device.writable = false ∧ f = .writeDenied a) ∨
      ∃ cells, bus.serving? a = some (.store cells) ∧ cells.writable = true ∧
        cells.width = .nibble ∧ 0x0F < value ∧ f = .outOfRangeValue a value) := by
  constructor
  · intro h
    refine ⟨eq_of_write_error h, ?_⟩
    rcases access_error_cases h with ⟨hserving, rfl, -⟩ | ⟨i, device, device', hserved, huse, -⟩
    · exact .inl ⟨hserving, rfl⟩
    · rw [ifWritable] at huse
      split at huse
      · obtain ⟨cells, rfl, hwidth, hlarge, rfl⟩ :=
          (Device.check_eq_error_iff hserved.contains).mp (Faulting.eq_of_guarded_error huse).1
        exact .inr (.inr ⟨cells, hserved.serving?, ‹_›, hwidth, hlarge, rfl⟩)
      · rename_i hdenied
        cases huse
        exact .inr (.inl ⟨device, hserved.serving?, Bool.eq_false_iff.mpr hdenied, rfl⟩)
  · rintro ⟨rfl, ⟨hserving, rfl⟩ | ⟨device, hserving, hdenied, rfl⟩ |
      ⟨cells, hserving, hwritable, hwidth, hlarge, rfl⟩⟩
    · exact access_of_not_served hserving _
    · obtain ⟨i, hserved⟩ := serving?_eq_some_iff.mp hserving
      rw [write, access_of_servedBy hserved, ifWritable, hdenied, if_neg Bool.false_ne_true, carry,
        replace_self hserved.getElem?]
    · obtain ⟨i, hserved⟩ := serving?_eq_some_iff.mp hserving
      have hpermits : (Device.store cells).writable = true := hwritable
      have hcheck := (Device.check_eq_error_iff hserved.contains).mpr
        ⟨cells, rfl, hwidth, hlarge, rfl⟩
      rw [write, access_of_servedBy hserved, ifWritable, if_pos hpermits, Device.write,
        Faulting.guarded_of_error _ hcheck, carry, replace_self hserved.getElem?]

theorem bearsOut_of_write_error (h : write a value bus = .error f bus') :
    f.address? = some a ∧ bus.BearsOut f := by
  obtain ⟨-, ⟨hserving, rfl⟩ | ⟨device, hserving, hdenied, rfl⟩ |
    ⟨cells, hserving, -, hwidth, hlarge, rfl⟩⟩ := write_eq_error_iff.mp h
  · exact ⟨rfl, bearsOut_unmappedAddress_iff.mpr hserving⟩
  · exact ⟨rfl, device, hserving, hdenied⟩
  · exact ⟨rfl, cells, hserving, hwidth, hlarge⟩

end Bus

/-! ## One byte and what is read afterwards -/

/-- What a program sends to a port is not what it reads there. -/
theorem Device.read_put_latch (ports : PortLatch) (a : UInt32) (value : UInt8) :
    ((latch ports).put a value).read a = (latch ports).read a := by
  rw [read_eq_content?, read_eq_content?, content?_put_self, content?, Option.map_map]
  cases ports.range.index? a <;> rfl

namespace Bus

variable {bus bus' : Bus} {a b : UInt32} {value : UInt8}

/-! ### A byte that was taken -/

/-- From `bus` to `bus'` a byte was taken at an address. -/
structure Takes (bus : Bus) (a : UInt32) (value : UInt8) (bus' : Bus) : Prop where
  /-- Everywhere else the bus gives the answers it gave. -/
  elsewhere : ∀ b, b ≠ a → bus'.read b = bus.read b ∧ bus'.captured? b = bus.captured? b
  /-- Memory that can be read shows the byte; memory for digits always can. -/
  stored : ∀ cells, bus.serving? a = some (.store cells) →
    cells.readable = true ∨ cells.width = .nibble → bus'.read a = .ok value
  /-- A port shows what it showed, and has one more byte on record. -/
  sent : ∀ latch, bus.serving? a = some (.latch latch) → bus'.read a = bus.read a ∧
    ∃ bytes, bus.captured? a = some bytes ∧
      bus'.captured? a = some ((bytes ++ [value]).rtake latch.captureLimit)

theorem answers_of_write (h : write a value bus = .ok () bus') (hb : b ≠ a) :
    bus'.read b = bus.read b ∧ bus'.captured? b = bus.captured? b := by
  have huntouched : bus.Untouched (· = b) bus' := .of_write hb.symm h
  exact huntouched.answers rfl

theorem answers_of_write_latch {latch : PortLatch} (h : write a value bus = .ok () bus')
    (hserving : bus.serving? a = some (.latch latch)) : bus'.read a = bus.read a ∧
      ∃ bytes, bus.captured? a = some bytes ∧
        bus'.captured? a = some ((bytes ++ [value]).rtake latch.captureLimit) := by
  constructor
  · obtain ⟨device, hdevice, hserving'⟩ := exists_serving?_of_write h
    obtain rfl := Option.some.inj (hserving.symm.trans hdevice)
    rw [read_of_serving hserving, read_of_serving hserving', Device.read_put_latch]
    rfl
  · obtain ⟨bytes, hrecorder⟩ := exists_recorder?_of_serving hserving
    exact ⟨bytes, captured?_of_recorder? hrecorder,
      captured?_of_recorder? (recorder?_write_self hrecorder h)⟩

theorem Built.isOpen (hbuilt : bus.Built) {cells : CellStore}
    (hserving : bus.serving? a = some (.store cells)) (hwidth : cells.width = .nibble) :
    cells.readable = true ∧ cells.writable = true :=
  (hbuilt _ (List.mem_of_find?_eq_some hserving)).isOpen hwidth

theorem takes_of_write (hbuilt : bus.Built) (h : write a value bus = .ok () bus') :
    bus.Takes a value bus' where
  elsewhere b hb := answers_of_write h hb
  stored cells hserving hkind := by
    have hreadable : cells.readable = true :=
      hkind.elim id fun hwidth ↦ (hbuilt.isOpen hserving hwidth).1
    exact Retains.read_of_write ⟨cells, hserving, hreadable⟩ h
  sent latch hserving := answers_of_write_latch h hserving

/-! ### The law -/

/-- **Reading over writing**, one byte at a time. What the bus shows afterwards is settled by the
device that took the byte, and if none took it the bus is as it was. -/
theorem read_over_write (hbuilt : bus.Built) (a : UInt32) (value : UInt8) :
    (∀ bus', write a value bus = .ok () bus' → bus.Takes a value bus') ∧
    (∀ f bus', write a value bus = .error f bus' → bus' = bus ∧
      (f = .unmappedAddress a ∨ f = .writeDenied a ∨ f = .outOfRangeValue a value)) ∧
    (write a value bus = .error (.unmappedAddress a) bus ↔
      ∀ device ∈ bus.devices, device.contains a = false) ∧
    (write a value bus = .error (.writeDenied a) bus ↔
      ∃ device, bus.serving? a = some device ∧ device.writable = false) ∧
    (write a value bus = .error (.outOfRangeValue a value) bus ↔
      ∃ cells, bus.serving? a = some (.store cells) ∧ cells.width = .nibble ∧ 0x0F < value) := by
  refine ⟨fun bus' ↦ takes_of_write hbuilt, fun f bus' h ↦ ?_, ?_, ?_, ?_⟩
  · obtain ⟨rfl, ⟨-, rfl⟩ | ⟨-, -, -, rfl⟩ | ⟨-, -, -, -, -, rfl⟩⟩ := write_eq_error_iff.mp h
    · exact ⟨rfl, .inl rfl⟩
    · exact ⟨rfl, .inr (.inl rfl)⟩
    · exact ⟨rfl, .inr (.inr rfl)⟩
  · have hnone : (∀ device ∈ bus.devices, device.contains a = false) ↔ bus.serving? a = none :=
      bearsOut_unmappedAddress_iff
    rw [write_eq_error_iff, hnone]
    simp
  · rw [write_eq_error_iff]
    simp
  · rw [write_eq_error_iff]
    simp only [true_and, reduceCtorEq, and_false, exists_false, false_or, and_true]
    refine exists_congr fun cells ↦ and_congr_right fun hserving ↦ ⟨And.right, fun h ↦ ?_⟩
    exact ⟨(hbuilt.isOpen hserving h.1).2, h⟩

/-- A bus with a latch that keeps one byte, in front of digits. -/
private def crowded : Bus :=
  ⟨"memory", [.latch { range := .between 0 2, captureLimit := 1 },
    .store { range := .between 0 8, width := .nibble }]⟩

theorem read_over_write_crowded : crowded.Built ∧
    (∃ bus', write 1 0x77 crowded = .ok () bus' ∧ bus'.read 1 = crowded.read 1 ∧
      bus'.captured? 1 = some [0x77] ∧ bus'.read 2 = crowded.read 2) ∧
    write 5 0x77 crowded = .error (.outOfRangeValue 5 0x77) crowded := by
  have hbuilt : crowded.Built := by
    intro device hmem
    simp only [crowded, List.mem_cons, List.not_mem_nil, or_false] at hmem
    rcases hmem with rfl | rfl
    · exact .ports _ 1
    · exact .nibbles _ .little
  have hok : ∃ bus', write 1 0x77 crowded = .ok () bus' := ⟨_, rfl⟩
  obtain ⟨bus', hwrite⟩ := hok
  have htakes := (read_over_write hbuilt 1 0x77).1 bus' hwrite
  obtain ⟨hread, bytes, hbefore, hafter⟩ := htakes.sent _ rfl
  have hnone : crowded.captured? 1 = some [] := rfl
  rw [hnone] at hbefore
  cases hbefore
  refine ⟨hbuilt, ⟨bus', hwrite, hread, hafter, (htakes.elsewhere 2 (by decide)).1⟩, ?_⟩
  obtain ⟨-, -, -, -, hlarge⟩ := read_over_write hbuilt 5 0x77
  exact hlarge.mpr ⟨_, rfl, rfl, by decide⟩

end Bus

/-! ## Images -/

/-- A byte that the host has placed is what the device shows. -/
theorem Device.read_install_self {device : Device} {a : UInt32} (h : device.contains a = true)
    (value : UInt8) : (device.install a value).read a = .ok value := by
  obtain ⟨content, hcontent⟩ := exists_content? h
  rw [read_eq_content?, content?_install_self, hcontent]
  cases content <;> rfl

namespace Bus

variable {bus bus' : Bus} {a b base : UInt32} {i : ℕ} {value : UInt8} {bytes : List UInt8}
  {device : Device} {f : Fault}

/-! ### One byte -/

def place (a : UInt32) (value : UInt8) : Faulting Bus Unit := access a (Device.load a value)

theorem place_eq_ok_iff : place a value bus = .ok () bus' ↔
    ∃ i device, bus.ServedBy a i device ∧ device.check a value = .ok () ∧
      bus' = bus.replace i (device.install a value) := by
  rw [place, access_eq_ok_iff]
  constructor
  · rintro ⟨i, device, device', hserved, huse, rfl⟩
    obtain ⟨hcheck, rfl⟩ := Faulting.eq_of_guarded_ok huse
    exact ⟨i, device, hserved, hcheck, rfl⟩
  · rintro ⟨i, device, hserved, hcheck, rfl⟩
    exact ⟨i, device, _, hserved, Faulting.guarded_of_ok _ hcheck, rfl⟩

theorem eq_of_place_error (h : place a value bus = .error f bus') : bus' = bus :=
  eq_of_access_error (fun hdevice ↦ (Faulting.eq_of_guarded_error hdevice).2) h

theorem blank_of_place (h : place a value bus = .ok () bus') : bus'.blank = bus.blank := by
  obtain ⟨i, device, hserved, -, rfl⟩ := place_eq_ok_iff.mp h
  exact blank_replace hserved.getElem? (device.blank_install value)

/-- The byte is shown if programs may read there. -/
theorem exists_read_of_place (h : place a value bus = .ok () bus') :
    ∃ device, bus.serving? a = some device ∧
      bus'.read a = if device.readable then .ok value else .error (.readDenied a) := by
  obtain ⟨i, device, hserved, -, rfl⟩ := place_eq_ok_iff.mp h
  have hsame := device.blank_install (a := a) value
  refine ⟨device, hserved.serving?, ?_⟩
  rw [read_of_serving (hserved.replace hsame).serving?, Device.read_install_self hserved.contains,
    Device.eq_of_blank Device.readable Device.readable_blank hsame]

theorem read_of_place_of_ne (h : place a value bus = .ok () bus') (hb : a ≠ b) :
    bus'.read b = bus.read b := by
  obtain ⟨i, device, hserved, -, rfl⟩ := place_eq_ok_iff.mp h
  exact (answers_replace hserved.getElem? (device.blank_install value)
    (device.content?_install_of_ne value hb)).1

theorem captured?_of_place (h : place a value bus = .ok () bus') (b : UInt32) :
    bus'.captured? b = bus.captured? b := by
  obtain ⟨i, device, hserved, -, rfl⟩ := place_eq_ok_iff.mp h
  have hsame := device.blank_install (a := a) value
  by_cases hab : a = b
  · subst hab
    rw [captured?_of_serving (hserved.replace hsame).serving?,
      captured?_of_serving hserved.serving?, device.captured?_install]
  · exact (answers_replace hserved.getElem? hsame (device.content?_install_of_ne value hab)).2

theorem lt_of_place (h : place a value bus = .ok () bus') : a.toNat + 1 < addressCount := by
  obtain ⟨_, device, hserved, -, -⟩ := place_eq_ok_iff.mp h
  exact AddressRange.lt_of_contains hserved.contains

/-- Some device serves the address, and it takes the byte there. -/
def Receives (bus : Bus) (a : UInt32) (value : UInt8) : Prop :=
  ∃ device, bus.serving? a = some device ∧ device.check a value = .ok ()

theorem exists_place_iff : (∃ bus', place a value bus = .ok () bus') ↔ bus.Receives a value := by
  constructor
  · rintro ⟨bus', h⟩
    obtain ⟨i, device, hserved, hcheck, -⟩ := place_eq_ok_iff.mp h
    exact ⟨device, hserved.serving?, hcheck⟩
  · rintro ⟨device, hserving, hcheck⟩
    obtain ⟨i, hserved⟩ := serving?_eq_some_iff.mp hserving
    exact ⟨_, place_eq_ok_iff.mpr ⟨i, device, hserved, hcheck, rfl⟩⟩

/-- What the devices keep does not matter. -/
theorem Receives.of_blank (h : bus.Receives a value) (hblank : bus'.blank = bus.blank) :
    bus'.Receives a value := by
  obtain ⟨device, hserving, hcheck⟩ := h
  obtain ⟨-, device', -, -, hserving', hsame⟩ := exists_serving?_of_blank hblank hserving
  refine ⟨device', hserving', ?_⟩
  rwa [Device.eq_of_blank (·.check a value) (·.check_blank value a) hsame]

/-! ### The first byte and the rest -/

theorem load_eq_forM (base : UInt32) (bytes : List UInt8) : load base bytes =
    bytes.zipIdx.forM fun entry ↦ place (base + UInt32.ofNat entry.2) entry.1 := by
  have hlast : ∀ entry : UInt8 × ℕ, Faulting.Fails (place lastAddress entry.1) := by
    intro entry bus _ bus' h
    exact absurd (lt_of_place h) (by decide)
  have hindex : bytes.zipIdx.map Prod.snd = List.range' 0 bytes.zipIdx.length := by
    rw [List.zipIdx_map_snd, List.length_zipIdx]
  have hload : load base bytes = bytes.zipIdx.forM (fun entry ↦ do
      place (← Faulting.ofExcept (byteAddress base entry.2)) entry.1) := rfl
  have hloop := Faulting.forM_byteAddress (fun entry a ↦ place a entry.1) hlast hindex base
  exact hload.trans hloop

theorem load_nil (base : UInt32) (bus : Bus) : load base [] bus = .ok () bus := rfl

/-- The rest of an image is an image that starts one address later. -/
theorem load_cons (base : UInt32) (value : UInt8) (bytes : List UInt8) :
    load base (value :: bytes) = (place base value >>= fun _ ↦ load (base + 1) bytes) := by
  have hfirst : place (base + UInt32.ofNat 0) value = place base value := by
    rw [add_ofNat_zero]
  have hrest : ((bytes.zipIdx 1).forM fun entry ↦ place (base + UInt32.ofNat entry.2) entry.1) =
      bytes.zipIdx.forM fun entry ↦ place (base + 1 + UInt32.ofNat entry.2) entry.1 := by
    simp only [List.zipIdx_succ, Faulting.forM_map, add_one_add_ofNat]
  rw [load_eq_forM, load_eq_forM, ← hfirst, ← hrest]
  rfl

theorem exists_load_iff : (∃ bus', load base bytes bus = .ok () bus') ↔
    ∀ (i : ℕ) (h : i < bytes.length), bus.Receives (base + UInt32.ofNat i) bytes[i] := by
  induction bytes generalizing base bus with
  | nil => exact ⟨fun _ ↦ nofun, fun _ ↦ ⟨bus, load_nil base bus⟩⟩
  | cons value bytes ih =>
    rw [load_cons]
    constructor
    · rintro ⟨bus', h⟩ i hi
      obtain ⟨_, next, hfirst, hrest⟩ := Faulting.exists_of_bind_ok h
      cases i with
      | zero =>
        rw [add_ofNat_zero]
        exact exists_place_iff.mp ⟨next, hfirst⟩
      | succ i =>
        have hlater := ih.mp ⟨bus', hrest⟩ i (Nat.lt_of_succ_lt_succ hi)
        rw [add_one_add_ofNat] at hlater
        exact hlater.of_blank (blank_of_place hfirst).symm
    · intro h
      have hfirst := h 0 (Nat.succ_pos _)
      rw [add_ofNat_zero] at hfirst
      obtain ⟨next, hplace⟩ := exists_place_iff.mpr hfirst
      obtain ⟨bus', hrest⟩ := ih.mpr fun i hi ↦ by
        have hlater := h (i + 1) (Nat.succ_lt_succ hi)
        rw [← add_one_add_ofNat] at hlater
        exact hlater.of_blank (blank_of_place hplace)
      exact ⟨bus', (Faulting.bind_of_ok hplace).trans hrest⟩

/-! ### What an image shows -/

/-- From `bus` to `bus'` the bytes of an image were placed. -/
structure Shows (bus : Bus) (base : UInt32) (bytes : List UInt8) (bus' : Bus) : Prop where
  /-- The image ends before the last address. -/
  fits : base.toNat + bytes.length < addressCount
  /-- A byte is read at its address if programs may read there. -/
  shown : ∀ (i : ℕ) (h : i < bytes.length), ∃ device,
    bus.serving? (base + UInt32.ofNat i) = some device ∧
      bus'.read (base + UInt32.ofNat i) =
        if device.readable then .ok bytes[i] else .error (.readDenied (base + UInt32.ofNat i))
  /-- Everywhere else is read what was read. -/
  elsewhere : ∀ b, b.toNat < base.toNat ∨ base.toNat + bytes.length ≤ b.toNat →
    bus'.read b = bus.read b
  /-- No record has changed. -/
  captured : ∀ b, bus'.captured? b = bus.captured? b

theorem shows_of_load (h : load base bytes bus = .ok () bus') : bus.Shows base bytes bus' := by
  -- over all bases and buses, since the rest starts one address later on another bus
  induction bytes generalizing base bus with
  | nil =>
    cases h
    exact ⟨base.toNat_lt, nofun, fun _ _ ↦ rfl, fun _ ↦ rfl⟩
  | cons value bytes ih =>
    rw [load_cons] at h
    obtain ⟨_, next, hfirst, hrest⟩ := Faulting.exists_of_bind_ok h
    have hnext : (base + 1).toNat = base.toNat + 1 := toNat_add_ofNat (lt_of_place hfirst)
    have hlater := ih hrest
    have hfits := hlater.fits
    rw [hnext] at hfits
    refine ⟨?_, fun i hi ↦ ?_, fun b hb ↦ ?_, fun b ↦ ?_⟩
    · rw [List.length_cons]
      omega
    · cases i with
      | zero =>
        obtain ⟨device, hserving, hread⟩ := exists_read_of_place hfirst
        have hkept := hlater.elsewhere base (.inl (by omega))
        rw [add_ofNat_zero]
        exact ⟨device, hserving, hkept.trans hread⟩
      | succ i =>
        obtain ⟨device, hserving, hread⟩ := hlater.shown i (Nat.lt_of_succ_lt_succ hi)
        rw [add_one_add_ofNat] at hserving hread
        obtain ⟨-, served, -, -, hserving', hsame⟩ :=
          exists_serving?_of_blank (blank_of_place hfirst).symm hserving
        refine ⟨served, hserving', ?_⟩
        rw [hread, Device.eq_of_blank Device.readable Device.readable_blank hsame]
        rfl
    · rw [List.length_cons] at hb
      have hne : base ≠ b := by
        rintro rfl
        omega
      rw [hlater.elsewhere b (by omega), read_of_place_of_ne hfirst hne]
    · rw [hlater.captured b, captured?_of_place hfirst b]

/-! ### Images that do not fit, and parts of images -/

theorem exists_of_load_error (h : load base bytes bus = .error f bus') :
    ∃ (j : ℕ) (hj : j < bytes.length), load base (bytes.take j) bus = .ok () bus' ∧
      load (base + UInt32.ofNat j) [bytes[j]] bus' = .error f bus' := by
  induction bytes generalizing base bus with
  | nil => cases h
  | cons value bytes ih =>
    rw [load_cons] at h
    rcases Faulting.error_or_of_bind_error h with hfirst | ⟨_, next, hfirst, hrest⟩
    · obtain rfl := eq_of_place_error hfirst
      refine ⟨0, Nat.succ_pos _, load_nil _ _, ?_⟩
      rw [add_ofNat_zero, load_cons]
      exact Faulting.bind_of_error hfirst
    · obtain ⟨j, hj, htaken, hrefused⟩ := ih hrest
      rw [add_one_add_ofNat] at hrefused
      refine ⟨j + 1, Nat.succ_lt_succ hj, ?_, hrefused⟩
      rw [List.take_succ_cons, load_cons, Faulting.bind_of_ok hfirst, htaken]

theorem load_append (base : UInt32) (bytes more : List UInt8) : load base (bytes ++ more) =
    (load base bytes >>= fun _ ↦ load (base + UInt32.ofNat bytes.length) more) := by
  induction bytes generalizing base with
  | nil =>
    rw [List.length_nil, add_ofNat_zero]
    rfl
  | cons value bytes ih =>
    rw [List.cons_append, load_cons, load_cons, bind_assoc, List.length_cons, ← add_one_add_ofNat]
    exact congrArg (_ >>= ·) (funext fun _ ↦ ih (base + 1))

/-- An image is placed if every byte of it can be, and is shown then. Of one that was not placed,
exactly the bytes before some byte are, and the fault is the one of placing that byte alone. An
image may be placed in parts. -/
theorem load_image (base : UInt32) (bytes : List UInt8) (bus : Bus) :
    ((∃ bus', load base bytes bus = .ok () bus') ↔
      ∀ (i : ℕ) (h : i < bytes.length), bus.Receives (base + UInt32.ofNat i) bytes[i]) ∧
    (∀ bus', load base bytes bus = .ok () bus' → bus.Shows base bytes bus') ∧
    (∀ f bus', load base bytes bus = .error f bus' → ∃ (j : ℕ) (hj : j < bytes.length),
      load base (bytes.take j) bus = .ok () bus' ∧
        load (base + UInt32.ofNat j) [bytes[j]] bus' = .error f bus') ∧
    ∀ more, load base (bytes ++ more) bus =
      (load base bytes >>= fun _ ↦ load (base + UInt32.ofNat bytes.length) more) bus :=
  ⟨exists_load_iff, fun _ ↦ shows_of_load, fun _ _ ↦ exists_of_load_error,
    fun more ↦ congrFun (load_append base bytes more) bus⟩

end Bus

end CalcWatch
