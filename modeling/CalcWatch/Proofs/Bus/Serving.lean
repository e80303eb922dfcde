import CalcWatch.Proofs.Bus.Contents

/-!
# Reading after writing, and devices that come and go

What a bus answers at an address depends on two things: on what the devices are, which settles who
serves the address, and on what the serving device keeps there. Writing changes the second and never
the first. Attaching and detaching change the first and never the second.

## Reading after writing

A written byte changes no answer at any other address. At its own address it is read back, provided
that the serving device has cells there: a port never shows what was sent to it.

## Devices that come and go

An address belongs to the first device that claims it, so whom it belongs to depends on the order of
the devices and on nothing else. A device that is attached stands behind all others and gets what
nobody had. When a device is detached, those behind it move up by one place. What belonged to others
stays with them, and what belonged to the device falls to the next one that claims it, which has
kept its own contents in the meantime.
-/

namespace CalcWatch

/-! ## Reading after writing -/

/-! ### What a device shows -/

/-- The byte that is read: the value of a cell, the input of a port. -/
def Content.shown : Content → UInt8
  | cell value => value
  | port p => p.input

/-- What is left of a content when a program has written a byte there: the byte itself in a cell,
and one more byte in the record of a port. -/
def Content.written (limit : ℕ) (value : UInt8) : Content → Content
  | cell _ => cell value
  | port p => port (p.record limit value)

/-- What is left of a content when the host has placed a byte there: the byte itself in a cell, and
what programs read from a port. -/
def Content.installed (value : UInt8) : Content → Content
  | cell _ => cell value
  | port p => port { p with input := value }

/-- The recorded output of a port; a cell records nothing. -/
def Content.recorded? (limit : ℕ) : Content → Option (List UInt8)
  | cell _ => none
  | port p => some (p.recent limit)

namespace Device

/-- How much output every port keeps. -/
def captureLimit : Device → ℕ
  | store _ => 0
  | latch ports => ports.captureLimit

variable (device : Device) {a : UInt32}

@[simp] theorem readable_blank : device.blank.readable = device.readable := by
  cases device <;> rfl

@[simp] theorem captureLimit_blank : device.blank.captureLimit = device.captureLimit := by
  cases device <;> rfl

theorem exists_content? {device : Device} (h : device.contains a = true) :
    ∃ content, device.content? a = some content := by
  rw [← Option.isSome_iff_exists]
  cases device <;> rwa [content?, Option.isSome_map, AddressRange.isSome_index?]

theorem read_eq_content? (a : UInt32) : device.read a =
    match device.content? a with
    | some content => .ok content.shown
    | none => .error (.unmappedAddress a) := by
  cases device with
  | store cells =>
    change cells.read a = _
    rw [CellStore.read, content?]
    cases cells.range.index? a <;> rfl
  | latch ports =>
    change ports.read a = _
    rw [PortLatch.read, content?]
    cases ports.range.index? a <;> rfl

theorem content?_put_self (a : UInt32) (value : UInt8) : (device.put a value).content? a =
    (device.content? a).map (Content.written device.captureLimit value) := by
  cases device with
  | store cells =>
    cases hi : cells.range.index? a with
    | none => simp [put, CellStore.put, content?, hi]
    | some i =>
      rw [put, CellStore.put_of_index value hi, content?, content?, hi]
      exact congrArg (some ∘ Content.cell) (Vector.getElem_set_self i.isLt)
  | latch ports =>
    rw [put, PortLatch.put, content?_modify, content?, Option.map_map]
    refine Option.map_congr fun j hj ↦ ?_
    rw [if_pos hj]
    rfl

theorem content?_install_self (a : UInt32) (value : UInt8) : (device.install a value).content? a =
    (device.content? a).map (Content.installed value) := by
  cases device with
  | store cells =>
    have hput := content?_put_self (store cells) a value
    rw [install]
    refine hput.trans ?_
    rw [content?, Option.map_map, Option.map_map]
    rfl
  | latch ports =>
    rw [install, PortLatch.setInput, content?_modify, content?, Option.map_map]
    refine Option.map_congr fun j hj ↦ ?_
    rw [if_pos hj]
    rfl

theorem captured?_eq_content? (a : UInt32) :
    device.captured? a = (device.content? a).bind (·.recorded? device.captureLimit) := by
  cases device with
  | store cells =>
    rw [captured?, content?]
    cases cells.range.index? a <;> rfl
  | latch ports =>
    change ports.captured? a = _
    rw [PortLatch.captured?, content?]
    cases ports.range.index? a <;> rfl

end Device

namespace Bus

variable {bus bus' : Bus} {a b : UInt32} {value : UInt8} {i : ℕ} {device device' : Device}
  {stores : List (UInt32 × UInt8)}

/-! ### Who serves an address -/

theorem contains_of_serving (h : bus.serving? a = some device) : device.contains a = true := by
  obtain ⟨_, hserved⟩ := serving?_eq_some_iff.mp h
  exact hserved.contains

theorem exists_serving?_of_blank (hblank : bus'.blank = bus.blank)
    (h : bus.serving? a = some device) :
    ∃ (i : ℕ) (device' : Device), bus.devices[i]? = some device ∧ bus'.devices[i]? = some device' ∧
      bus'.serving? a = some device' ∧ device'.blank = device.blank := by
  obtain ⟨i, hserved⟩ := serving?_eq_some_iff.mp h
  obtain ⟨device', hserved', hsame⟩ := hserved.of_blank hblank
  exact ⟨i, device', hserved.getElem?, hserved'.getElem?, hserved'.serving?, hsame⟩

theorem serving?_eq_none_of_blank (hblank : bus'.blank = bus.blank) (h : bus.serving? a = none) :
    bus'.serving? a = none := by
  cases h' : bus'.serving? a with
  | none => rfl
  | some device' =>
    obtain ⟨_, device, -, -, hserving, -⟩ := exists_serving?_of_blank hblank.symm h'
    rw [h] at hserving
    cases hserving

/-! ### What a bus answers -/

theorem read_of_serving (h : bus.serving? a = some device) :
    bus.read a = if device.readable then device.read a else .error (.readDenied a) := by
  rw [read, reader, h]
  dsimp only
  split <;> rfl

theorem read_of_not_served (h : bus.serving? a = none) :
    bus.read a = .error (.unmappedAddress a) := by
  rw [read, reader, h]
  rfl

theorem captured?_of_serving (h : bus.serving? a = some device) :
    bus.captured? a = device.captured? a := by
  rw [captured?, h]
  rfl

/-- Two buses of the same devices that keep the same at an address give the same answers there. -/
theorem answers_congr (hblank : bus'.blank = bus.blank)
    (hcontent : ∀ i, bus'.content? i a = bus.content? i a) :
    bus'.read a = bus.read a ∧ bus'.captured? a = bus.captured? a := by
  cases h : bus.serving? a with
  | none =>
    have h' := serving?_eq_none_of_blank hblank h
    refine ⟨(read_of_not_served h').trans (read_of_not_served h).symm, ?_⟩
    rw [captured?, captured?, h, h']
  | some device =>
    obtain ⟨i, device', hi, hi', h', hsame⟩ := exists_serving?_of_blank hblank h
    have hkept := hcontent i
    rw [content?, content?, hi, hi'] at hkept
    have hkept : device'.content? a = device.content? a := hkept
    constructor
    · rw [read_of_serving h, read_of_serving h', device.read_eq_content?, device'.read_eq_content?,
        hkept, Device.eq_of_blank Device.readable Device.readable_blank hsame]
    · rw [captured?_of_serving h, captured?_of_serving h', device.captured?_eq_content?,
        device'.captured?_eq_content?, hkept,
        Device.eq_of_blank Device.captureLimit Device.captureLimit_blank hsame]

/-- Where the device keeps what it kept, the bus gives the answers it gave. -/
theorem answers_replace (hi : bus.devices[i]? = some device)
    (hsame : device'.blank = device.blank) (hkept : device'.content? b = device.content? b) :
    (bus.replace i device').read b = bus.read b ∧
      (bus.replace i device').captured? b = bus.captured? b := by
  refine answers_congr (blank_replace hi hsame) fun j ↦ ?_
  rw [content?, content?]
  by_cases hij : i = j
  · subst hij
    rw [getElem?_replace_self hi, hi]
    exact hkept
  · rw [replace, List.getElem?_set_ne hij]

theorem Untouched.answers {barred : UInt32 → Prop} (h : bus.Untouched barred bus')
    (ha : barred a) : bus'.read a = bus.read a ∧ bus'.captured? a = bus.captured? a :=
  answers_congr h.blank fun i ↦ h.barred i a ha

/-- Written bytes change the answers at their own addresses only. -/
theorem answers_of_writeAll (h : writeAll stores bus = .ok () bus')
    (hb : ∀ store ∈ stores, store.1 ≠ b) :
    bus'.read b = bus.read b ∧ bus'.captured? b = bus.captured? b := by
  have huntouched : bus.Untouched (· = b) bus' := .of_writeAll hb h
  exact huntouched.answers rfl

/-! ### Cells -/

/-- What programs store at the address they can read back there. -/
def Retains (bus : Bus) (a : UInt32) : Prop :=
  ∃ cells, bus.serving? a = some (.store cells) ∧ cells.readable = true

/-- Programs can store any byte at the address and read it back. -/
def IsRam (bus : Bus) (a : UInt32) : Prop :=
  ∃ cells, bus.serving? a = some (.store cells) ∧ cells.width = .byte ∧ cells.readable = true ∧
    cells.writable = true

/-- Programs can write any byte to the address. -/
def Accepts (bus : Bus) (a : UInt32) : Prop :=
  ∃ device, bus.serving? a = some device ∧ device.writable = true ∧
    ∀ value, device.check a value = .ok ()

theorem IsRam.retains (h : bus.IsRam a) : bus.Retains a := by
  obtain ⟨cells, hserving, -, hreadable, -⟩ := h
  exact ⟨cells, hserving, hreadable⟩

theorem IsRam.accepts (h : bus.IsRam a) : bus.Accepts a := by
  obtain ⟨cells, hserving, hwidth, -, hwritable⟩ := h
  refine ⟨_, hserving, hwritable, fun value ↦ ?_⟩
  have hcontains : cells.range.contains a = true := contains_of_serving hserving
  have hfits : value ≤ CellWidth.byte.largest :=
    UInt8.le_iff_toNat_le.mpr (Nat.le_of_lt_succ value.toNat_lt)
  change cells.check a value = .ok ()
  rw [CellStore.check, if_pos hcontains, hwidth, if_pos hfits]

theorem exists_store_of_blank (hblank : bus'.blank = bus.blank) {cells : CellStore}
    (h : bus.serving? a = some (.store cells)) :
    ∃ cells', bus'.serving? a = some (.store cells') ∧ cells'.width = cells.width ∧
      cells'.readable = cells.readable ∧ cells'.writable = cells.writable := by
  obtain ⟨-, device', -, -, h', hsame⟩ := exists_serving?_of_blank hblank h
  cases device' with
  | store cells' =>
    injection hsame with hsame
    injection hsame with _ hwidth hreadable hwritable _ _
    exact ⟨cells', h', hwidth, hreadable, hwritable⟩
  | latch ports => cases hsame

theorem Retains.of_blank (hblank : bus'.blank = bus.blank) (h : bus.Retains a) :
    bus'.Retains a := by
  obtain ⟨cells, hserving, hreadable⟩ := h
  obtain ⟨cells', hserving', -, hreadable', -⟩ := exists_store_of_blank hblank hserving
  exact ⟨cells', hserving', hreadable'.trans hreadable⟩

theorem Accepts.of_blank (hblank : bus'.blank = bus.blank) (h : bus.Accepts a) :
    bus'.Accepts a := by
  obtain ⟨device, hserving, hwritable, hcheck⟩ := h
  obtain ⟨-, device', -, -, hserving', hsame⟩ := exists_serving?_of_blank hblank hserving
  refine ⟨device', hserving', ?_, fun value ↦ ?_⟩
  · rwa [Device.eq_of_blank Device.writable Device.writable_blank hsame]
  · rw [Device.eq_of_blank (·.check a value) (·.check_blank value a) hsame, hcheck]

theorem IsRam.of_blank (hblank : bus'.blank = bus.blank) (h : bus.IsRam a) : bus'.IsRam a := by
  obtain ⟨cells, hserving, hwidth, hreadable, hwritable⟩ := h
  obtain ⟨cells', hserving', hwidth', hreadable', hwritable'⟩ :=
    exists_store_of_blank hblank hserving
  exact ⟨cells', hserving', hwidth'.trans hwidth, hreadable'.trans hreadable,
    hwritable'.trans hwritable⟩

/-! ### Bytes that are written -/

theorem Accepts.exists_write_ok (h : bus.Accepts a) (value : UInt8) :
    ∃ bus', write a value bus = .ok () bus' := by
  obtain ⟨device, hserving, hwritable, hcheck⟩ := h
  obtain ⟨i, hserved⟩ := serving?_eq_some_iff.mp hserving
  exact ⟨_, write_eq_ok_iff.mpr ⟨i, device, hserved, hwritable, hcheck value, rfl⟩⟩

theorem exists_serving?_of_write (h : write a value bus = .ok () bus') :
    ∃ device, bus.serving? a = some device ∧ bus'.serving? a = some (device.put a value) := by
  obtain ⟨i, device, hserved, -, -, rfl⟩ := write_eq_ok_iff.mp h
  exact ⟨device, hserved.serving?, (hserved.replace (device.blank_put value)).serving?⟩

theorem Retains.read_of_write (h : bus.Retains a) (hwrite : write a value bus = .ok () bus') :
    bus'.read a = .ok value := by
  obtain ⟨cells, hserving, hreadable⟩ := h
  obtain ⟨device, hdevice, hserving'⟩ := exists_serving?_of_write hwrite
  rw [hserving] at hdevice
  cases hdevice
  have hcontains : cells.range.contains a = true := contains_of_serving hserving
  have hreadable' : ((Device.store cells).put a value).readable = cells.readable :=
    Device.eq_of_blank Device.readable Device.readable_blank (Device.blank_put _ value)
  rw [read_of_serving hserving', if_pos (hreadable'.trans hreadable)]
  exact CellStore.read_put_self value hcontains

theorem exists_writeAll_ok (h : ∀ store ∈ stores, bus.Accepts store.1) :
    ∃ bus', writeAll stores bus = .ok () bus' := by
  induction stores generalizing bus with
  | nil => exact ⟨bus, rfl⟩
  | cons store stores ih =>
    obtain ⟨next, hfirst⟩ := (h store List.mem_cons_self).exists_write_ok store.2
    obtain ⟨bus', hrest⟩ := ih fun later hlater ↦
      (h later (List.mem_cons_of_mem _ hlater)).of_blank (blank_of_write hfirst)
    exact ⟨bus', (Faulting.bind_of_ok hfirst).trans hrest⟩

/-- Bytes written to different addresses are all read back. -/
theorem read_of_writeAll (hnodup : (stores.map Prod.fst).Nodup)
    (h : writeAll stores bus = .ok () bus') {store : UInt32 × UInt8} (hmem : store ∈ stores)
    (hretains : bus.Retains store.1) : bus'.read store.1 = .ok store.2 := by
  induction stores generalizing bus with
  | nil => cases hmem
  | cons first stores ih =>
    rw [List.map_cons, List.nodup_cons] at hnodup
    obtain ⟨_, next, hfirst, hrest⟩ := Faulting.exists_of_bind_ok h
    rcases List.mem_cons.mp hmem with rfl | hlater
    · have helsewhere : ∀ later ∈ stores, later.1 ≠ store.1 := fun later hlater heq ↦
        hnodup.1 (heq ▸ List.mem_map_of_mem hlater)
      rw [(answers_of_writeAll hrest helsewhere).1, hretains.read_of_write hfirst]
    · exact ih hnodup.2 hrest hlater (hretains.of_blank (blank_of_write hfirst))

end Bus

/-! ## Devices that come and go -/

namespace Bus

variable {bus bus' : Bus} {a : UInt32} {i j k : ℕ} {device x : Device} {f : Fault}

/-! ### Claims and answers -/

/-- Device `i` claims the address, whether or not it serves it. -/
def Claims (bus : Bus) (i : ℕ) (a : UInt32) : Prop :=
  ∃ device, bus.devices[i]? = some device ∧ device.contains a = true

theorem shadowed_iff : bus.Shadowed i a ↔ ∃ j < i, bus.Claims j a := Iff.rfl

theorem Claims.lt_length (h : bus.Claims i a) : i < bus.devices.length := by
  obtain ⟨device, hi, -⟩ := h
  exact (List.getElem?_eq_some_iff.mp hi).1

theorem serving?_eq_none_iff : bus.serving? a = none ↔ ∀ i, ¬bus.Claims i a := by
  rw [serving?, List.find?_eq_none]
  constructor
  · rintro hnone i ⟨device, hi, hclaims⟩
    exact hnone device (List.mem_of_getElem? hi) hclaims
  · intro hnone device hmem hclaims
    obtain ⟨i, hi⟩ := List.mem_iff_getElem?.mp hmem
    exact hnone i ⟨device, hi, hclaims⟩

/-- The address belongs to device `i`, and the bus answers with what this device keeps. -/
structure AnswersFrom (bus : Bus) (a : UInt32) (i : ℕ) (device : Device) : Prop where
  resolve : bus.resolve a = .ok i
  getElem? : bus.devices[i]? = some device
  read : bus.read a = if device.readable then device.read a else .error (.readDenied a)
  captured? : bus.captured? a = device.captured? a

theorem ServedBy.answersFrom (h : bus.ServedBy a i device) : bus.AnswersFrom a i device where
  resolve := resolve_eq_ok_iff.mpr ⟨device, h⟩
  getElem? := h.getElem?
  read := read_of_serving h.serving?
  captured? := captured?_of_serving h.serving?

/-- What belonged to device `i` of one bus belongs to device `j` of another one. They are the same
device, and the buses give the same answers. -/
structure KeptBy (bus : Bus) (a : UInt32) (i : ℕ) (bus' : Bus) (j : ℕ) : Prop where
  resolve : bus'.resolve a = .ok j
  getElem? : bus'.devices[j]? = bus.devices[i]?
  read : bus'.read a = bus.read a
  captured? : bus'.captured? a = bus.captured? a

theorem ServedBy.keptBy (h : bus.ServedBy a i device) (h' : bus'.ServedBy a j device) :
    bus.KeptBy a i bus' j where
  resolve := h'.answersFrom.resolve
  getElem? := h'.getElem?.trans h.getElem?.symm
  read := h'.answersFrom.read.trans h.answersFrom.read.symm
  captured? := h'.answersFrom.captured?.trans h.answersFrom.captured?.symm

/-! ### One more device -/

theorem getElem?_devices_attach_of_lt (x : Device) (hi : i < bus.devices.length) :
    (bus.attach x).devices[i]? = bus.devices[i]? :=
  List.getElem?_append_left hi

theorem getElem?_devices_attach_length (bus : Bus) (x : Device) :
    (bus.attach x).devices[bus.devices.length]? = some x :=
  List.getElem?_concat_length

/-- The device that has come claims nothing in an earlier place. -/
theorem claims_of_attach (hi : i < bus.devices.length) (h : (bus.attach x).Claims i a) :
    bus.Claims i a := by
  rwa [Claims, getElem?_devices_attach_of_lt x hi] at h

theorem ServedBy.attach (h : bus.ServedBy a i device) (x : Device) :
    (bus.attach x).ServedBy a i device := by
  have hi : i < bus.devices.length := Claims.lt_length ⟨device, h.getElem?, h.contains⟩
  refine ⟨(getElem?_devices_attach_of_lt x hi).trans h.getElem?, h.contains, ?_⟩
  rintro ⟨j, hj, hclaims⟩
  exact h.first ⟨j, hj, claims_of_attach (Nat.lt_trans hj hi) hclaims⟩

theorem servedBy_attach_length (h : bus.serving? a = none) (hx : x.contains a = true) :
    (bus.attach x).ServedBy a bus.devices.length x := by
  refine ⟨bus.getElem?_devices_attach_length x, hx, ?_⟩
  rintro ⟨j, hj, hclaims⟩
  exact serving?_eq_none_iff.mp h j (claims_of_attach hj hclaims)

theorem serving?_attach_eq_none (h : bus.serving? a = none) (hx : x.contains a = false) :
    (bus.attach x).serving? a = none := by
  rw [serving?, attach, List.find?_append]
  rw [serving?] at h
  rw [h, Option.none_or, List.find?_singleton, hx, if_neg Bool.false_ne_true]

/-! ### One device less -/

/-- The place that the device now in place `j` had before device `i` was taken away. -/
def formerPlace (i j : ℕ) : ℕ := if j < i then j else j + 1

theorem formerPlace_ne (i j : ℕ) : formerPlace i j ≠ i := by
  rw [formerPlace]
  split <;> omega

theorem formerPlace_lt_iff : formerPlace i j < formerPlace i k ↔ j < k := by
  rw [formerPlace, formerPlace]
  split <;> split <;> omega

/-- Every place but that of the device that was taken away is the former place of some device. -/
theorem exists_formerPlace_eq (h : k ≠ i) : ∃ j, formerPlace i j = k := by
  rcases Nat.lt_or_gt_of_ne h with hlt | hgt
  · exact ⟨k, if_pos hlt⟩
  · refine ⟨k - 1, ?_⟩
    rw [formerPlace, if_neg (by omega), Nat.sub_add_cancel (Nat.one_le_of_lt hgt)]

theorem getElem?_devices_detach (bus : Bus) (i j : ℕ) :
    (bus.detach i).2.devices[j]? = bus.devices[formerPlace i j]? := by
  change (bus.devices.eraseIdx i)[j]? = _
  rw [List.getElem?_eraseIdx, formerPlace]
  split <;> rfl

theorem claims_detach_iff : (bus.detach i).2.Claims j a ↔ bus.Claims (formerPlace i j) a := by
  rw [Claims, getElem?_devices_detach, Claims]

/-- The device that was taken away stands in nobody's way any more. -/
theorem shadowed_detach_iff : (bus.detach i).2.Shadowed j a ↔
    ∃ k < formerPlace i j, k ≠ i ∧ bus.Claims k a := by
  rw [shadowed_iff]
  constructor
  · rintro ⟨k, hk, hclaims⟩
    exact ⟨formerPlace i k, formerPlace_lt_iff.mpr hk, formerPlace_ne i k,
      claims_detach_iff.mp hclaims⟩
  · rintro ⟨former, hlt, hne, hclaims⟩
    obtain ⟨k, rfl⟩ := exists_formerPlace_eq hne
    exact ⟨k, formerPlace_lt_iff.mp hlt, claims_detach_iff.mpr hclaims⟩

theorem servedBy_detach_iff : (bus.detach i).2.ServedBy a j device ↔
    bus.devices[formerPlace i j]? = some device ∧ device.contains a = true ∧
      ∀ k < formerPlace i j, k ≠ i → ¬bus.Claims k a := by
  constructor
  · intro h
    refine ⟨(bus.getElem?_devices_detach i j).symm.trans h.getElem?, h.contains, ?_⟩
    intro k hk hne hclaims
    exact h.first (shadowed_detach_iff.mpr ⟨k, hk, hne, hclaims⟩)
  · rintro ⟨hdevice, hclaims, hfirst⟩
    refine ⟨(bus.getElem?_devices_detach i j).trans hdevice, hclaims, ?_⟩
    intro hshadowed
    obtain ⟨k, hk, hne, hearlier⟩ := shadowed_detach_iff.mp hshadowed
    exact hfirst k hk hne hearlier

/-- What belonged to another device still does. -/
theorem ServedBy.detach (h : bus.ServedBy a (formerPlace i j) device) :
    (bus.detach i).2.ServedBy a j device := by
  refine servedBy_detach_iff.mpr ⟨h.getElem?, h.contains, ?_⟩
  intro k hk _ hclaims
  exact h.first ⟨k, hk, hclaims⟩

/-- What belonged to the device falls to the next one that claims it, or to nobody. -/
theorem ServedBy.detach_self (h : bus.ServedBy a i device) :
    (∃ k > i, ∃ next, bus.devices[k]? = some next ∧ next.contains a = true ∧
      (∀ j, i < j → j < k → ¬bus.Claims j a) ∧ (bus.detach i).2.ServedBy a (k - 1) next) ∨
    (∀ k > i, ¬bus.Claims k a) ∧ (bus.detach i).2.serving? a = none := by
  by_cases hnone : (bus.detach i).2.serving? a = none
  · refine .inr ⟨?_, hnone⟩
    intro k hk hclaims
    obtain ⟨j, rfl⟩ := exists_formerPlace_eq (Nat.ne_of_gt hk)
    exact serving?_eq_none_iff.mp hnone j (claims_detach_iff.mpr hclaims)
  · obtain ⟨next, hserving⟩ := Option.ne_none_iff_exists'.mp hnone
    obtain ⟨j, hserved⟩ := serving?_eq_some_iff.mp hserving
    obtain ⟨hnext, hclaims, hfirst⟩ := servedBy_detach_iff.mp hserved
    -- no device before the one that was taken away claims the address
    have hij : ¬j < i := by
      intro hlt
      rw [formerPlace, if_pos hlt] at hnext
      exact h.first ⟨j, hlt, next, hnext, hclaims⟩
    rw [formerPlace, if_neg hij] at hnext hfirst
    refine .inl ⟨j + 1, by omega, next, hnext, hclaims, ?_, hserved⟩
    intro k hik hk
    exact hfirst k hk (Nat.ne_of_gt hik)

/-! ### Attaching and detaching -/

/-- What becomes of the address when device `i` is taken away. -/
structure Inherits (bus : Bus) (i : ℕ) (a : UInt32) : Prop where
  /-- Devices before it keep the address and their places. -/
  before : ∀ j < i, bus.resolve a = .ok j → bus.KeptBy a j (bus.detach i).2 j
  /-- Devices behind it keep the address and move up by one place. -/
  behind : ∀ j > i, bus.resolve a = .ok j → bus.KeptBy a j (bus.detach i).2 (j - 1)
  /-- What belonged to the device falls to the next one that claims it, if there is one. -/
  next : bus.resolve a = .ok i →
    (∃ k > i, ∃ next, bus.devices[k]? = some next ∧ next.contains a = true ∧
      (∀ j, i < j → j < k → ¬bus.Claims j a) ∧ (bus.detach i).2.AnswersFrom a (k - 1) next) ∨
    (∀ k > i, ¬bus.Claims k a) ∧ (bus.detach i).2.resolve a = .error (.unmappedAddress a)
  /-- What belonged to nobody still does not. -/
  unmapped : ∀ f, bus.resolve a = .error f → (bus.detach i).2.resolve a = .error f

theorem inherits (bus : Bus) (i : ℕ) (a : UInt32) : bus.Inherits i a where
  before j hj hresolve := by
    obtain ⟨device, hserved⟩ := resolve_eq_ok_iff.mp hresolve
    have hplace : formerPlace i j = j := if_pos hj
    exact hserved.keptBy (ServedBy.detach (hplace.symm ▸ hserved))
  behind j hj hresolve := by
    obtain ⟨device, hserved⟩ := resolve_eq_ok_iff.mp hresolve
    have hplace : formerPlace i (j - 1) = j := by
      rw [formerPlace, if_neg (by omega), Nat.sub_add_cancel (Nat.one_le_of_lt hj)]
    exact hserved.keptBy (ServedBy.detach (hplace.symm ▸ hserved))
  next hresolve := by
    obtain ⟨device, hserved⟩ := resolve_eq_ok_iff.mp hresolve
    rcases hserved.detach_self with ⟨k, hk, next, hnext, hclaims, hfirst, hserved'⟩ | ⟨hrest, hnone⟩
    · exact .inl ⟨k, hk, next, hnext, hclaims, hfirst, hserved'.answersFrom⟩
    · exact .inr ⟨hrest, resolve_eq_error_iff.mpr ⟨hnone, rfl⟩⟩
  unmapped f hresolve := by
    obtain ⟨hnone, rfl⟩ := resolve_eq_error_iff.mp hresolve
    refine resolve_eq_error_iff.mpr ⟨serving?_eq_none_iff.mpr ?_, rfl⟩
    intro j hclaims
    exact serving?_eq_none_iff.mp hnone _ (claims_detach_iff.mp hclaims)

/-- **Devices come and go without disturbing each other.** A device that is attached gets exactly
the addresses of its own that belonged to nobody. A device that is detached leaves everything to
others as it was, and its own addresses to the devices behind it. -/
theorem attach_and_detach (bus : Bus) (x : Device) :
    (∀ a i, bus.resolve a = .ok i → bus.KeptBy a i (bus.attach x) i) ∧
    (∀ a f, bus.resolve a = .error f →
      ((bus.attach x).AnswersFrom a bus.devices.length x ↔ x.contains a = true) ∧
      ((bus.attach x).resolve a = .error (.unmappedAddress a) ↔ x.contains a = false)) ∧
    (∀ i < bus.devices.length, (bus.detach i).1 = bus.devices[i]? ∧
      (bus.detach i).1.isSome = true ∧ ∀ a, bus.Inherits i a) ∧
    (∀ i ≥ bus.devices.length, bus.detach i = (none, bus)) ∧
    (bus.attach x).detach bus.devices.length = (some x, bus) := by
  refine ⟨?_, ?_, ?_, ?_, ?_⟩
  · intro a i hresolve
    obtain ⟨device, hserved⟩ := resolve_eq_ok_iff.mp hresolve
    exact hserved.keptBy (hserved.attach x)
  · intro a f hresolve
    obtain ⟨hnone, -⟩ := resolve_eq_error_iff.mp hresolve
    by_cases hx : x.contains a = true
    · have hanswers := (servedBy_attach_length hnone hx).answersFrom
      rw [hanswers.resolve]
      simp [hanswers, hx]
    · rw [Bool.not_eq_true] at hx
      have hresolve' : (bus.attach x).resolve a = .error (.unmappedAddress a) :=
        resolve_eq_error_iff.mpr ⟨serving?_attach_eq_none hnone hx, rfl⟩
      refine ⟨iff_of_false ?_ (by simp [hx]), iff_of_true hresolve' hx⟩
      intro hanswers
      have hsame := hresolve'.symm.trans hanswers.resolve
      cases hsame
  · intro i hi
    refine ⟨rfl, ?_, bus.inherits i⟩
    change bus.devices[i]?.isSome = true
    rw [List.getElem?_eq_getElem hi, Option.isSome_some]
  · intro i hi
    rw [detach, List.getElem?_eq_none hi, List.eraseIdx_of_length_le hi]
  · rw [detach, getElem?_devices_attach_length]
    congr 1
    rw [attach, List.eraseIdx_append_of_length_le (Nat.le_refl _), Nat.sub_self,
      List.eraseIdx_cons_zero, List.append_nil]

end Bus

end CalcWatch
