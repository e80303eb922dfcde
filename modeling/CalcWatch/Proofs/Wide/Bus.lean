import CalcWatch.Proofs.Wide.Device

/-!
# Wide accesses on a bus

The device that serves the first address of a wide access serves all of it, in its own byte order.

## The whole access and its bytes

A bus hands a wide access to the device that serves its first address, and that device serves all of
it or fails. It makes no difference to asking the bus for one byte after the other as long as the
same device serves all of the addresses: to the bus, a byte of it is a byte of that device, and a
byte that was written there has not changed which device it is.

## Byte orders that a layout asks for

A layout says of each device in which byte order it wants it to be accessed. The first device of the
layout that lies at an address serves the wide accesses there, and it serves them in the order that
was asked for, unless it is a latch: a latch does not take the order that it is given and sends the
least significant byte to the lowest port.
-/

namespace CalcWatch

/-! ## The whole access and its bytes -/

namespace Bus

variable {α : Type} {bus bus' : Bus} {a : UInt32} {i v : ℕ} {width : Width} {device : Device}
  {stores : List (UInt32 × UInt8)}

/-! ### The whole access -/

theorem readWide_of_servedBy (h : bus.ServedBy a i device) : bus.readWide width a =
    if device.readable then device.readWide width a else .error (.readDenied a) := by
  rw [readWide, reader, h.serving?]
  dsimp only
  split <;> rfl

theorem writeWide_of_servedBy (h : bus.ServedBy a i device) : writeWide width a v bus =
    if device.writable then bus.carry i (Device.writeWide width a v device)
    else .error (.writeDenied a) bus := by
  rw [writeWide, access_of_servedBy h, ifWritable]
  split
  · rfl
  · rw [carry, replace_self h.getElem?]

/-! ### Byte by byte -/

theorem carry_replace (bus : Bus) (i : ℕ) (device : Device)
    (outcome : EStateM.Result Fault Device α) :
    (bus.replace i device).carry i outcome = bus.carry i outcome := by
  cases outcome <;> rw [carry, carry, replace_replace]

theorem write_of_servedBy (h : bus.ServedBy a i device) (hwritable : device.writable = true)
    (byte : UInt8) :
    write a byte bus = bus.carry i (Device.write a byte device) := by
  rw [write, access_of_servedBy h, ifWritable, if_pos hwritable]

/-- Bytes for one device are written there as they would be without the bus. -/
theorem writeAll_of_servedBy (hi : bus.devices[i]? = some device)
    (hserved : ∀ store ∈ stores, bus.ServedBy store.1 i device)
    (hwritable : device.writable = true) :
    writeAll stores bus = bus.carry i (Device.writeAll stores device) := by
  -- over all buses with such a device, since the first byte puts another one in its place
  induction stores generalizing bus device with
  | nil => exact congrArg (EStateM.Result.ok ()) (replace_self hi).symm
  | cons store stores ih =>
    obtain ⟨hfirst, hrest⟩ := List.forall_mem_cons.mp hserved
    have hwrite := write_of_servedBy hfirst hwritable store.2
    rw [writeAll_cons, Device.writeAll_cons]
    cases hbyte : Device.write store.1 store.2 device with
    | error f device' =>
      rw [hbyte] at hwrite
      rw [Faulting.bind_of_error hwrite, Faulting.bind_of_error hbyte]
      rfl
    | ok u next =>
      rw [hbyte] at hwrite
      obtain ⟨-, rfl⟩ := Faulting.eq_of_guarded_ok hbyte
      have hsame := device.blank_put (a := store.1) store.2
      have hlater := ih (getElem?_replace_self hi)
        (fun later hmem ↦ (hrest later hmem).replace hsame)
        ((Device.eq_of_blank Device.writable Device.writable_blank hsame).trans hwritable)
      rw [Faulting.bind_of_ok hwrite, Faulting.bind_of_ok hbyte, hlater, carry_replace]

/-- What a bus makes of a wide access. -/
structure ServesWide (bus : Bus) (width : Width) (a : UInt32) : Prop where
  /-- Nothing is read or written if no device claims the first address. -/
  unmapped : ∀ f, bus.resolve a = .error f →
    bus.readWide width a = .error f ∧ ∀ v, writeWide width a v bus = .error f bus
  /-- The access goes to the device that claims the first address, and to no other. -/
  delegated : ∀ i, bus.resolve a = .ok i → ∃ device, bus.devices[i]? = some device ∧
    (bus.readWide width a =
      if device.readable then device.readWide width a else .error (.readDenied a)) ∧
    ∀ v, writeWide width a v bus =
      if device.writable then bus.carry i (Device.writeWide width a v device)
      else .error (.writeDenied a) bus
  /-- If all the addresses lead to one device, the bytes may be read and written one by one. -/
  bytewise : ∀ i device, bus.devices[i]? = some device →
    (∀ b ∈ width.addresses a, bus.resolve b = .ok i) →
    bus.readWide width a = ((width.addresses a).mapM bus.read).map device.order.value ∧
    ∀ v, writeWide width a v bus = writeAll (device.order.stores width a v) bus

theorem readWide_bytewise (hserved : ∀ b ∈ width.addresses a, bus.ServedBy b i device) :
    bus.readWide width a = ((width.addresses a).mapM bus.read).map device.order.value := by
  have hread : ∀ b ∈ width.addresses a,
      bus.read b = if device.readable then device.read b else .error (.readDenied b) :=
    fun b hb ↦ read_of_serving (hserved b hb).serving?
  obtain ⟨rest, hrest⟩ := width.addresses_eq_cons a
  have ha : a ∈ width.addresses a := by
    rw [hrest]
    exact List.mem_cons_self
  rw [readWide_of_servedBy (hserved a ha)]
  cases hreadable : device.readable with
  | true =>
    have hsame : ∀ b ∈ width.addresses a, bus.read b = device.read b := by
      intro b hb
      rw [hread b hb, hreadable, if_pos rfl]
    rw [if_pos rfl, device.readWide_eq, mapM_congr hsame]
  | false =>
    -- the first byte is denied already, with the fault of the wide access
    have hfirst := hread a ha
    rw [hreadable, if_neg Bool.false_ne_true] at hfirst
    rw [if_neg Bool.false_ne_true, hrest, List.mapM_cons, hfirst]
    rfl

theorem writeWide_bytewise (hserved : ∀ b ∈ width.addresses a, bus.ServedBy b i device) (v : ℕ) :
    writeWide width a v bus = writeAll (device.order.stores width a v) bus := by
  have hstores : ∀ store ∈ device.order.stores width a v, bus.ServedBy store.1 i device := by
    intro store hmem
    refine hserved store.1 ?_
    rw [← device.order.map_fst_stores width a v]
    exact List.mem_map_of_mem hmem
  obtain ⟨byte, rest, hcons⟩ := device.order.stores_eq_cons width a v
  have ha : bus.ServedBy a i device := hstores (a, byte) (hcons ▸ List.mem_cons_self)
  rw [writeWide_of_servedBy ha]
  cases hwritable : device.writable with
  | true =>
    rw [if_pos rfl, device.writeWide_eq, writeAll_of_servedBy ha.getElem? hstores hwritable]
  | false =>
    have hfirst : write a byte bus = .error (.writeDenied a) bus := by
      rw [write, access_of_servedBy ha, ifWritable, hwritable, if_neg Bool.false_ne_true, carry,
        replace_self ha.getElem?]
    rw [if_neg Bool.false_ne_true, hcons, writeAll_cons, Faulting.bind_of_error hfirst]

theorem servesWide (bus : Bus) (width : Width) (a : UInt32) : bus.ServesWide width a where
  unmapped f h := by
    obtain ⟨hserving, rfl⟩ := resolve_eq_error_iff.mp h
    refine ⟨?_, fun v ↦ access_of_not_served hserving _⟩
    rw [readWide, reader, hserving]
    rfl
  delegated i h := by
    obtain ⟨device, hserved⟩ := resolve_eq_ok_iff.mp h
    exact ⟨device, hserved.getElem?, readWide_of_servedBy hserved,
      fun v ↦ writeWide_of_servedBy hserved⟩
  bytewise i device hi h := by
    have hserved : ∀ b ∈ width.addresses a, bus.ServedBy b i device := by
      intro b hb
      obtain ⟨served, hserved⟩ := resolve_eq_ok_iff.mp (h b hb)
      obtain rfl := Option.some.inj (hi.symm.trans hserved.getElem?)
      exact hserved
    exact ⟨readWide_bytewise hserved, writeWide_bytewise hserved⟩

/-- **Wide accesses agree with single bytes**, on a device and on a bus. -/
theorem wide_accesses (width : Width) (a : UInt32) :
    (∀ device : Device, device.ReadsBytes width a ∧ ∀ v, device.WritesBytes width a v) ∧
      ∀ bus : Bus, bus.ServesWide width a :=
  ⟨fun device ↦ ⟨device.readsBytes width a, device.writesBytes width a⟩,
    fun bus ↦ bus.servesWide width a⟩

end Bus

/-! ## Byte orders that a layout asks for -/

section

variable {a : UInt32} {width : Width}

/-! ### Accesses in a byte order -/

/-- The wide accesses that device `i` serves at an address have a byte order. -/
structure Bus.Follows (bus : Bus) (i : ℕ) (device : Device) (order : ByteOrder) (width : Width)
    (a : UInt32) : Prop where
  /-- A write that succeeds has put the bytes of the value in this order, and changed no other. -/
  written : ∀ v bus', writeWide width a v bus = .ok () bus' → ∃ device',
    device.Written (order.stores width a v) device' ∧ bus' = bus.replace i device'
  /-- The value that is read has the bytes in this order. -/
  composed : ∀ v, bus.readWide width a = .ok v → ∃ bytes,
    (width.addresses a).mapM device.read = .ok bytes ∧ v = order.value bytes

namespace Bus

variable {bus : Bus} {i : ℕ} {device : Device} {order : ByteOrder}

theorem ServedBy.exists_of_writeWide_ok (h : bus.ServedBy a i device) {v : ℕ} {bus' : Bus}
    (hwrite : writeWide width a v bus = .ok () bus') : device.writable = true ∧ ∃ device',
      Device.writeWide width a v device = .ok () device' ∧ bus' = bus.replace i device' := by
  rw [writeWide_of_servedBy h] at hwrite
  cases hwritable : device.writable with
  | false =>
    rw [hwritable, if_neg Bool.false_ne_true] at hwrite
    cases hwrite
  | true =>
    rw [hwritable, if_pos rfl] at hwrite
    cases hdevice : Device.writeWide width a v device with
    | error f device' =>
      rw [hdevice] at hwrite
      cases hwrite
    | ok u device' =>
      rw [hdevice] at hwrite
      cases hwrite
      exact ⟨rfl, device', rfl, rfl⟩

theorem ServedBy.readWide_ok (h : bus.ServedBy a i device) {v : ℕ}
    (hread : bus.readWide width a = .ok v) : device.readWide width a = .ok v := by
  rw [readWide_of_servedBy h] at hread
  split at hread
  · exact hread
  · cases hread

/-- The device that serves an address has its say about the order there. -/
theorem ServedBy.follows (h : bus.ServedBy a i device) :
    bus.Follows i device device.order width a where
  written v bus' hwrite := by
    obtain ⟨-, device', hdevice, rfl⟩ := h.exists_of_writeWide_ok hwrite
    exact ⟨device', (device.writesBytes width a v).written device' hdevice, rfl⟩
  composed v hread := (device.readsBytes width a).composed v (h.readWide_ok hread)

/-- Accesses that cannot succeed have any order. -/
theorem ServedBy.follows_of_not_spans (h : bus.ServedBy a i device)
    (hspans : ¬device.Spans width a) : bus.Follows i device order width a where
  written v bus' hwrite := by
    obtain ⟨-, device', hdevice, -⟩ := h.exists_of_writeWide_ok hwrite
    exact absurd ((device.writesBytes width a v).spans.mp ⟨device', hdevice⟩).1 hspans
  composed v hread :=
    absurd ((device.readsBytes width a).spans.mp ⟨v, h.readWide_ok hread⟩) hspans

end Bus

/-! ### Ports tell the orders apart -/

theorem Port.record_inj {port : Port} {limit : ℕ} (hlimit : 0 < limit) {v w : UInt8}
    (h : port.record limit v = port.record limit w) : v = w := by
  have hrecent : (port.record limit v).recent limit = (port.record limit w).recent limit :=
    congrArg (recent · limit) h
  obtain ⟨n, rfl⟩ := Nat.exists_eq_succ_of_ne_zero hlimit.ne'
  rw [recent_record, recent_record, List.rtake_concat_succ, List.rtake_concat_succ] at hrecent
  exact List.singleton_injective (List.append_cancel_left hrecent)

theorem ByteOrder.first_mem_stores (order : ByteOrder) (width : Width) (a : UInt32) (v : ℕ) :
    (a, byteAt v (order.place width.bytes 0)) ∈ order.stores width a v := by
  rw [stores_eq_map, List.mem_map]
  exact ⟨0, List.mem_range.mpr width.bytes_pos, by rw [add_ofNat_zero]⟩

/-- A device that takes the bytes of a value has them from the first address on. -/
theorem Device.Written.port {latch : PortLatch} {order : ByteOrder} {v : ℕ} {device' : Device}
    (h : Device.Written (.latch latch) (order.stores width a v) device') {k : Fin latch.range.size}
    (hk : latch.range.index? a = some k) :
    device'.content? a = some (.port ((latch.ports.get k).record latch.captureLimit
      (ByteOrder.byteAt v (order.place width.bytes 0)))) := by
  rw [h.stored _ (order.first_mem_stores width a v), content?, hk]
  rfl

/-- A latch that keeps what is sent to it is not served from the most significant byte on. -/
theorem Bus.ServedBy.not_follows_big {bus : Bus} {i : ℕ} {latch : PortLatch}
    (h : bus.ServedBy a i (.latch latch)) (hlimit : 0 < latch.captureLimit)
    (hspans : (Device.latch latch).Spans width a) (hwidth : width ≠ .byte) :
    ¬bus.Follows i (.latch latch) .big width a := by
  intro hfollows
  -- the number one, of which only the least significant byte is not zero
  obtain ⟨device', hdevice⟩ := ((Device.latch latch).writesBytes width a 1).spans.mpr
    ⟨hspans, fun byte _ ↦ trivial⟩
  have hwrite : writeWide width a 1 bus = .ok () (bus.replace i device') := by
    rw [writeWide_of_servedBy h, hdevice]
    rfl
  obtain ⟨other, hbig, hother⟩ := hfollows.written 1 _ hwrite
  have hsame : some device' = some other := by
    rw [← getElem?_replace_self h.getElem?, hother, getElem?_replace_self h.getElem?]
  cases hsame
  obtain ⟨k, hk⟩ := Option.isSome_iff_exists.mp ((latch.range.isSome_index? a).trans h.contains)
  have hlittle := ((Device.latch latch).writesBytes width a 1).written device' hdevice
  have hrecord := (hlittle.port hk).symm.trans (hbig.port hk)
  injection hrecord with hrecord
  injection hrecord with hrecord
  have hbytes : ByteOrder.byteAt 1 (ByteOrder.little.place width.bytes 0) =
      ByteOrder.byteAt 1 (ByteOrder.big.place width.bytes 0) := Port.record_inj hlimit hrecord
  cases width with
  | byte => exact hwidth rfl
  | half | word | double => exact absurd hbytes (by decide)

/-! ### Layouts -/

namespace DeviceLayout

/-- The byte order in which the device is accessed that is built from the layout. -/
def servedOrder (layout : DeviceLayout) : ByteOrder :=
  match layout.kind with
  | .portLatch => .little
  | _ => layout.order

variable (layout : DeviceLayout)

theorem order_build : layout.build.order = layout.servedOrder := by
  obtain ⟨kind, low, high, order⟩ := layout
  cases kind <;> rfl

theorem range_build : layout.build.range = layout.range := by
  obtain ⟨kind, low, high, order⟩ := layout
  cases kind <;> rfl

theorem blank_build : layout.build.blank = layout.build := by
  obtain ⟨kind, low, high, order⟩ := layout
  cases kind <;> rfl

theorem servedOrder_eq (h : ¬(layout.kind = .portLatch ∧ layout.order = .big)) :
    layout.servedOrder = layout.order := by
  obtain ⟨kind, low, high, order⟩ := layout
  cases kind with
  | portLatch =>
    cases order with
    | little => rfl
    | big => exact absurd ⟨rfl, rfl⟩ h
  | ram | rom | nibble => rfl

/-- What is built where a latch is asked for keeps what is sent to it. -/
theorem exists_latch_of_blank (hkind : layout.kind = .portLatch) {device : Device}
    (hsame : device.blank = layout.build) : ∃ latch, device = .latch latch ∧
      0 < latch.captureLimit := by
  have hbuild : layout.build = .latch { range := layout.range } := by
    rw [build, hkind]
  rw [hbuild] at hsame
  cases device with
  | store cells => cases hsame
  | latch latch =>
    have hlimit : latch.captureLimit = stockCaptureLimit :=
      congrArg Device.captureLimit hsame
    exact ⟨latch, rfl, hlimit ▸ (by decide)⟩

end DeviceLayout

namespace BusLayout

variable (layout : BusLayout) (name : String)

theorem blank_build : (layout.build name).blank = layout.build name := by
  rw [build, Bus.blank, List.map_map]
  exact congrArg _ (List.map_congr_left fun entry _ ↦ entry.blank_build)

theorem serving?_build (a : UInt32) : (layout.build name).serving? a =
    (layout.devices.find? (·.range.contains a)).map DeviceLayout.build := by
  rw [build, Bus.serving?, List.find?_map]
  refine congrArg (Option.map _) (congrArg (List.find? · layout.devices) ?_)
  funext entry
  exact congrArg (AddressRange.contains · a) entry.range_build

/-- **The byte order of a layout.** On a bus that was built from a layout, with whatever contents,
the first entry that lies at an address serves the wide accesses there, in the order it asks for if
it is not a latch, and from the least significant byte on if it is one. So the order that was asked
for is the one that is followed, unless a latch is asked to be accessed from the most significant
byte on and has ports for a whole access. -/
theorem follows_iff {bus : Bus} {entry : DeviceLayout} (hbuilt : bus.blank = layout.build name)
    (hentry : layout.devices.find? (·.range.contains a) = some entry) (hwidth : width ≠ .byte) :
    ∃ i device, bus.ServedBy a i device ∧ device.blank = entry.build ∧
      bus.Follows i device entry.servedOrder width a ∧
      (bus.Follows i device entry.order width a ↔
        (entry.kind = .portLatch → entry.order = .big → ¬entry.build.Spans width a)) := by
  have hserving : (layout.build name).serving? a = some entry.build := by
    rw [serving?_build, hentry, Option.map_some]
  obtain ⟨i, hserved⟩ := Bus.serving?_eq_some_iff.mp hserving
  obtain ⟨device, hserved, hsame⟩ := hserved.of_blank (hbuilt.trans (blank_build layout name).symm)
  have hspans : device.Spans width a ↔ entry.build.Spans width a := by
    rw [Device.Spans, Device.Spans, Device.eq_of_blank Device.range Device.range_blank hsame]
  have horder : device.order = entry.servedOrder := by
    rw [Device.eq_of_blank Device.order Device.order_blank hsame, entry.order_build]
  have hfollows : bus.Follows i device entry.servedOrder width a := horder ▸ hserved.follows
  rw [entry.blank_build] at hsame
  refine ⟨i, device, hserved, hsame, hfollows, ?_⟩
  by_cases hdropped : entry.kind = .portLatch ∧ entry.order = .big
  · obtain ⟨hkind, hbig⟩ := hdropped
    rw [hbig, ← hspans]
    constructor
    · intro h _ _ hdevice
      obtain ⟨latch, rfl, hlimit⟩ := entry.exists_latch_of_blank hkind hsame
      exact hserved.not_follows_big hlimit hdevice hwidth h
    · intro h
      exact hserved.follows_of_not_spans (h hkind rfl)
  · rw [entry.servedOrder_eq hdropped] at hfollows
    exact iff_of_true hfollows fun hkind hbig ↦ absurd ⟨hkind, hbig⟩ hdropped

/-- Two ports with one access over both of them, and the two bytes of a value. -/
theorem follows_iff_latch :
    let layout : BusLayout := ⟨[⟨.portLatch, 0, 2, .big⟩]⟩
    ∃ i device, (layout.build "io").ServedBy 0 i device ∧
      (layout.build "io").Follows i device .little .half 0 ∧
      ¬(layout.build "io").Follows i device .big .half 0 := by
  intro layout
  have hentry : layout.devices.find? (·.range.contains 0) = some ⟨.portLatch, 0, 2, .big⟩ := by
    decide
  have hwidth : Width.half ≠ .byte := by decide
  obtain ⟨i, device, hserved, -, hlittle, hbig⟩ :=
    follows_iff layout "io" (layout.blank_build "io") hentry hwidth
  refine ⟨i, device, hserved, hlittle, fun h ↦ hbig.mp h rfl rfl ⟨?_, ?_⟩⟩ <;> decide

end BusLayout

end

end CalcWatch
