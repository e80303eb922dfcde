import CalcWatch.Proofs.Bus.Access

/-!
# What written bytes leave alone

A program changes its buses only by writing bytes, so what it cannot change is what no written byte
can. It is told first for one byte and then for any number of them.

## One byte

A byte that a program writes goes to the first device that claims its address, if that device may be
written at all. So a device that may not be written keeps its contents, and so does every device
where an earlier one claims the address. Of a port only the record changes. What a device is, apart
from its contents, never changes: it is said once by the blank device, which is the device as it was
built.

## Any number of bytes

Whatever bytes a program writes, devices that it may not write keep their contents, ports keep their
inputs, and so does every device where an earlier one shadows it or at addresses that the program
never uses. All of this follows from what one byte does, since it is a relation between two buses
that can be chained. As the devices stay what they are, a bus takes the same bytes at any time.
-/

namespace CalcWatch

/-! ## One byte -/

/-! ### Contents of a device -/

/-- What a device keeps at one address. -/
inductive Content where
  /-- The value of a cell. -/
  | cell (value : UInt8)
  /-- A port: its input and the record of its output. -/
  | port (port : Port)

namespace Device

/-- What the device keeps at an address; `none` where it has neither cell nor port. -/
def content? : Device → UInt32 → Option Content
  | store cells, a => (cells.range.index? a).map fun i ↦ .cell (cells.cells.get i)
  | latch ports, a => (ports.range.index? a).map fun i ↦ .port (ports.ports.get i)

/-- The input of the port at an address; `none` where the device has no port. -/
def input? : Device → UInt32 → Option UInt8
  | store _, _ => none
  | latch ports, a => (ports.range.index? a).map fun i ↦ (ports.ports.get i).input

/-- The device without contents. It still tells the kind of the device, its addresses, whether
programs may read and write it, its byte order, and how much its cells or records hold. -/
def blank : Device → Device
  | store cells => store { cells with cells := .replicate _ 0 }
  | latch ports => latch { ports with ports := .replicate _ {} }

/-- What a device says about itself: its addresses, whether programs may read and write it, and its
byte order. -/
def traits (device : Device) : AddressRange × Bool × Bool × ByteOrder :=
  (device.range, device.readable, device.writable, device.order)

variable (device : Device) {a b : UInt32} (value : UInt8)

theorem traits_blank : device.blank.traits = device.traits := by cases device <;> rfl

@[simp] theorem range_blank : device.blank.range = device.range := by cases device <;> rfl

@[simp] theorem contains_blank (a : UInt32) : device.blank.contains a = device.contains a := by
  cases device <;> rfl

@[simp] theorem writable_blank : device.blank.writable = device.writable := by
  cases device <;> rfl

@[simp] theorem check_blank (a : UInt32) : device.blank.check a value = device.check a value := by
  cases device <;> rfl

/-- What the blank device tells is the same for all devices that are alike when blank. -/
theorem eq_of_blank {β : Type} (f : Device → β)
    (hf : ∀ device : Device, f device.blank = f device) {device device' : Device}
    (h : device'.blank = device.blank) : f device' = f device := by
  rw [← hf device', h, hf device]

theorem blank_modify (ports : PortLatch) (a : UInt32) (change : Port → Port) :
    (latch (ports.modify a change)).blank = (latch ports).blank := by
  rw [PortLatch.modify]
  split <;> rfl

theorem blank_put : (device.put a value).blank = device.blank := by
  cases device with
  | store cells =>
    rw [put, CellStore.put]
    split <;> rfl
  | latch ports => exact blank_modify ports a _

theorem blank_install : (device.install a value).blank = device.blank := by
  cases device with
  | store cells => exact blank_put (store cells) value
  | latch ports => exact blank_modify ports a _

theorem get_modify_ports {n : ℕ} (ports : Vector Port n) (i j : Fin n)
    (change : Port → Port) (h : (ports.toArray.modify i change).size = n) :
    (⟨ports.toArray.modify i change, h⟩ : Vector Port n).get j
      = if i = j then change (ports.get j) else ports.get j := by
  change (ports.toArray.modify i change)[j.val] = _
  rw [Array.getElem_modify]
  simp only [Fin.ext_iff]
  rfl

theorem content?_modify (ports : PortLatch) (a b : UInt32) (change : Port → Port) :
    (latch (ports.modify a change)).content? b = (ports.range.index? b).map fun j ↦
      .port (if ports.range.index? a = some j then change (ports.ports.get j)
        else ports.ports.get j) := by
  cases hi : ports.range.index? a with
  | none =>
    rw [PortLatch.modify, hi, content?]
    simp
  | some i =>
    rw [PortLatch.modify, hi, content?]
    refine Option.map_congr fun j _ ↦ ?_
    rw [get_modify_ports]
    simp

theorem content?_modify_of_ne (ports : PortLatch) (change : Port → Port) (h : a ≠ b) :
    (latch (ports.modify a change)).content? b = (latch ports).content? b := by
  rw [content?_modify, content?]
  refine Option.map_congr fun j hj ↦ ?_
  rw [if_neg]
  exact fun hi ↦ h (AddressRange.index?_inj hi hj)

theorem content?_put_of_ne (h : a ≠ b) : (device.put a value).content? b = device.content? b := by
  cases device with
  | store cells =>
    cases hi : cells.range.index? a with
    | none => rw [put, CellStore.put, hi]
    | some i =>
      rw [put, CellStore.put_of_index value hi, content?, content?]
      refine Option.map_congr fun j hj ↦ ?_
      have hne : i.val ≠ j.val := by
        intro e
        obtain rfl := Fin.ext e
        exact h (AddressRange.index?_inj hi hj)
      exact congrArg Content.cell (Vector.getElem_set_ne i.isLt j.isLt hne)
  | latch ports => exact content?_modify_of_ne ports _ h

theorem content?_install_of_ne (h : a ≠ b) :
    (device.install a value).content? b = device.content? b := by
  cases device with
  | store cells => exact content?_put_of_ne (store cells) value h
  | latch ports => exact content?_modify_of_ne ports _ h

/-- No byte that a program writes is an input. -/
theorem input?_put : (device.put a value).input? b = device.input? b := by
  cases device with
  | store cells => rfl
  | latch ports =>
    cases hi : ports.range.index? a with
    | none => rw [put, PortLatch.put, PortLatch.modify, hi]
    | some i =>
      rw [put, PortLatch.put, PortLatch.modify, hi, input?, input?]
      refine Option.map_congr fun j _ ↦ ?_
      rw [get_modify_ports]
      split <;> rfl

end Device

/-! ### One byte on a bus -/

namespace Bus

variable {bus bus' bus'' : Bus} {a b : UInt32} {value : UInt8} {i : ℕ}

def content? (bus : Bus) (i : ℕ) (a : UInt32) : Option Content :=
  bus.devices[i]?.bind (·.content? a)

/-- The input of the port of device `i` at an address. -/
def input? (bus : Bus) (i : ℕ) (a : UInt32) : Option UInt8 := bus.devices[i]?.bind (·.input? a)

def ReadOnly (bus : Bus) (i : ℕ) : Prop :=
  ∃ device, bus.devices[i]? = some device ∧ device.writable = false

def blank (bus : Bus) : Bus := { bus with devices := bus.devices.map Device.blank }

theorem getElem?_devices_blank (bus : Bus) (i : ℕ) :
    bus.blank.devices[i]? = bus.devices[i]?.map Device.blank := List.getElem?_map

theorem map_traits_blank (bus : Bus) :
    bus.blank.devices.map Device.traits = bus.devices.map Device.traits := by
  rw [blank, List.map_map]
  exact List.map_congr_left fun device _ ↦ device.traits_blank

theorem readOnly_blank : bus.blank.ReadOnly i ↔ bus.ReadOnly i := by
  simp [ReadOnly, getElem?_devices_blank]

theorem shadowed_blank : bus.blank.Shadowed i a ↔ bus.Shadowed i a := by
  simp [Shadowed, getElem?_devices_blank]

/-! The devices of two buses that are alike when blank stand in the same places. -/

theorem readOnly_iff_of_blank (h : bus'.blank = bus.blank) :
    bus'.ReadOnly i ↔ bus.ReadOnly i := by
  rw [← readOnly_blank, h, readOnly_blank]

theorem shadowed_iff_of_blank (h : bus'.blank = bus.blank) :
    bus'.Shadowed i a ↔ bus.Shadowed i a := by
  rw [← shadowed_blank, h, shadowed_blank]

theorem exists_getElem?_of_blank {device : Device} (h : bus'.blank = bus.blank)
    (hi : bus.devices[i]? = some device) :
    ∃ device', bus'.devices[i]? = some device' ∧ device'.blank = device.blank := by
  have hsame : bus'.devices[i]?.map Device.blank = some device.blank := by
    rw [← getElem?_devices_blank, h, getElem?_devices_blank, hi]
    rfl
  exact Option.map_eq_some_iff.mp hsame

/-! #### Another device of the same kind -/

variable {device device' : Device}

theorem blank_replace (hi : bus.devices[i]? = some device)
    (hsame : device'.blank = device.blank) : (bus.replace i device').blank = bus.blank := by
  have hget : (bus.devices.map Device.blank)[i]? = some device.blank := by
    rw [List.getElem?_map, hi]
    rfl
  obtain ⟨hlt, hget⟩ := List.getElem?_eq_some_iff.mp hget
  rw [blank, blank, replace, List.map_set, hsame, ← hget, List.set_getElem_self]

/-- In a bus with the same devices, whatever they keep, the device in the same place serves an
address. -/
theorem ServedBy.of_blank (h : bus.ServedBy a i device) (hblank : bus'.blank = bus.blank) :
    ∃ device', bus'.ServedBy a i device' ∧ device'.blank = device.blank := by
  obtain ⟨device', hi, hsame⟩ := exists_getElem?_of_blank hblank h.getElem?
  refine ⟨device', ⟨hi, ?_, ?_⟩, hsame⟩
  · rw [Device.eq_of_blank (·.contains a) (·.contains_blank a) hsame]
    exact h.contains
  · rw [shadowed_iff_of_blank hblank]
    exact h.first

theorem ServedBy.replace (h : bus.ServedBy a i device) (hsame : device'.blank = device.blank) :
    (bus.replace i device').ServedBy a i device' := by
  obtain ⟨served, hserved, -⟩ := h.of_blank (blank_replace h.getElem? hsame)
  have hi : (bus.replace i device').devices[i]? = some device' :=
    getElem?_replace_self h.getElem?
  obtain rfl := Option.some.inj (hi.symm.trans hserved.getElem?)
  exact hserved

/-! #### A written byte -/

/-- If a written byte has changed what a device keeps at an address, it was written there, the
device may be written, and no earlier device shadows it. -/
theorem of_content?_ne_of_write (h : write a value bus = .ok () bus')
    (hne : bus'.content? i b ≠ bus.content? i b) :
    b = a ∧ ¬bus.Shadowed i b ∧ ¬bus.ReadOnly i := by
  obtain ⟨k, device, ⟨hk, -, hfirst⟩, hwritable, -, rfl⟩ := write_eq_ok_iff.mp h
  have hchanged : k = i ∧ a = b := by
    by_contra hother
    apply hne
    rw [content?, content?]
    by_cases hki : k = i
    · subst hki
      rw [getElem?_replace_self hk, hk]
      exact device.content?_put_of_ne value fun e ↦ hother ⟨rfl, e⟩
    · rw [replace, List.getElem?_set_ne hki]
  obtain ⟨rfl, rfl⟩ := hchanged
  refine ⟨rfl, hfirst, ?_⟩
  rintro ⟨device', hk', hreadOnly⟩
  rw [hk] at hk'
  cases hk'
  rw [hwritable] at hreadOnly
  cases hreadOnly

theorem input?_of_write (h : write a value bus = .ok () bus') (i : ℕ) (b : UInt32) :
    bus'.input? i b = bus.input? i b := by
  obtain ⟨k, device, hserved, -, -, rfl⟩ := write_eq_ok_iff.mp h
  rw [input?, input?]
  by_cases hki : k = i
  · subst hki
    rw [getElem?_replace_self hserved.getElem?, hserved.getElem?]
    exact device.input?_put value
  · rw [replace, List.getElem?_set_ne hki]

theorem blank_of_write (h : write a value bus = .ok () bus') : bus'.blank = bus.blank := by
  obtain ⟨k, device, hserved, -, -, rfl⟩ := write_eq_ok_iff.mp h
  exact blank_replace hserved.getElem? (device.blank_put value)

end Bus

/-! ## Any number of bytes -/

namespace Bus

variable {barred barred' : UInt32 → Prop} {bus bus' bus'' : Bus} {a : UInt32} {value : UInt8}
  {stores : List (UInt32 × UInt8)}

/-- From `bus` to `bus'` nothing has changed that is out of the reach of a program which never uses
the barred addresses. -/
structure Untouched (barred : UInt32 → Prop) (bus bus' : Bus) : Prop where
  /-- The devices are the same and stand in the same order. -/
  blank : bus'.blank = bus.blank
  /-- What may not be written is kept. -/
  readOnly : ∀ i a, bus.ReadOnly i → bus'.content? i a = bus.content? i a
  /-- What a program reads from a port is kept. -/
  input : ∀ i a, bus'.input? i a = bus.input? i a
  /-- What stands behind an earlier device is kept. -/
  shadowed : ∀ i a, bus.Shadowed i a → bus'.content? i a = bus.content? i a
  /-- What a barred address shows is kept. -/
  barred : ∀ i a, barred a → bus'.content? i a = bus.content? i a

namespace Untouched

theorem refl (barred : UInt32 → Prop) (bus : Bus) : bus.Untouched barred bus where
  blank := rfl
  readOnly _ _ _ := rfl
  input _ _ := rfl
  shadowed _ _ _ := rfl
  barred _ _ _ := rfl

theorem trans (h : bus.Untouched barred bus') (h' : bus'.Untouched barred bus'') :
    bus.Untouched barred bus'' where
  blank := h'.blank.trans h.blank
  readOnly i a hi := by
    have hi' : bus'.ReadOnly i := (readOnly_iff_of_blank h.blank).mpr hi
    exact (h'.readOnly i a hi').trans (h.readOnly i a hi)
  input i a := (h'.input i a).trans (h.input i a)
  shadowed i a hi := by
    have hi' : bus'.Shadowed i a := (shadowed_iff_of_blank h.blank).mpr hi
    exact (h'.shadowed i a hi').trans (h.shadowed i a hi)
  barred i a ha := (h'.barred i a ha).trans (h.barred i a ha)

theorem mono (h : bus.Untouched barred bus') (hbarred : ∀ a, barred' a → barred a) :
    bus.Untouched barred' bus' :=
  { h with barred := fun i a ha ↦ h.barred i a (hbarred a ha) }

theorem of_write (ha : ¬barred a) (h : write a value bus = .ok () bus') :
    bus.Untouched barred bus' where
  blank := blank_of_write h
  readOnly i b hi := by
    by_contra hne
    exact (of_content?_ne_of_write h hne).2.2 hi
  input := input?_of_write h
  shadowed i b hi := by
    by_contra hne
    exact (of_content?_ne_of_write h hne).2.1 hi
  barred i b hb := by
    by_contra hne
    obtain ⟨rfl, -⟩ := of_content?_ne_of_write h hne
    exact ha hb

theorem of_writeAll (hstores : ∀ store ∈ stores, ¬barred store.1)
    (h : writeAll stores bus = .ok () bus') : bus.Untouched barred bus' := by
  induction stores generalizing bus with
  | nil =>
    cases h
    exact .refl _ _
  | cons store stores ih =>
    rw [writeAll_cons] at h
    obtain ⟨_, next, hfirst, hrest⟩ := Faulting.exists_of_bind_ok h
    exact (of_write (hstores store List.mem_cons_self) hfirst).trans
      (ih (fun s hs ↦ hstores s (List.mem_cons_of_mem _ hs)) hrest)

theorem map_traits (h : bus.Untouched barred bus') :
    bus'.devices.map Device.traits = bus.devices.map Device.traits := by
  rw [← map_traits_blank, h.blank, map_traits_blank]

end Untouched

theorem blank_of_writeAll (h : writeAll stores bus = .ok () bus') : bus'.blank = bus.blank := by
  have huntouched : bus.Untouched (fun _ ↦ False) bus' := .of_writeAll (fun _ _ ↦ id) h
  exact huntouched.blank

/-! ### Bytes that are taken again -/

theorem exists_write_ok_of_blank {other : Bus} (hblank : other.blank = bus.blank)
    (h : write a value bus = .ok () bus') : ∃ other', write a value other = .ok () other' := by
  obtain ⟨i, device, hserved, hwritable, hcheck, -⟩ := write_eq_ok_iff.mp h
  obtain ⟨device', hserved', hsame⟩ := hserved.of_blank hblank
  refine ⟨_, write_eq_ok_iff.mpr ⟨i, device', hserved', ?_, ?_, rfl⟩⟩
  · rwa [Device.eq_of_blank Device.writable Device.writable_blank hsame]
  · rwa [Device.eq_of_blank (·.check a value) (·.check_blank value a) hsame]

theorem exists_writeAll_ok_of_blank {other : Bus} (hblank : other.blank = bus.blank)
    (h : writeAll stores bus = .ok () bus') : ∃ other', writeAll stores other = .ok () other' := by
  induction stores generalizing bus other with
  | nil => exact ⟨other, rfl⟩
  | cons store stores ih =>
    rw [writeAll_cons] at h
    obtain ⟨_, next, hfirst, hrest⟩ := Faulting.exists_of_bind_ok h
    obtain ⟨next', hfirst'⟩ := exists_write_ok_of_blank hblank hfirst
    have hnext : next'.blank = next.blank := by
      rw [blank_of_write hfirst', hblank, blank_of_write hfirst]
    obtain ⟨other', hrest'⟩ := ih hnext hrest
    exact ⟨other', (Faulting.bind_of_ok hfirst').trans hrest'⟩

end Bus

end CalcWatch
