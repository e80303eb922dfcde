import CalcWatch.Proofs.Bus.Refusals
import Mathlib.Data.List.Nodup
import Mathlib.Data.Nat.Digits.Defs
import Mathlib.Tactic.Ring

/-!
# Wide accesses to a device

A wide access is made of accesses of one byte. What it reads and writes is told by the bytes of the
value, and where it ends by the range of the device.

## The bytes of a value

A value is a number in base 256, and its bytes are the digits. The byte order says whether the
digits stand at ascending or at descending addresses. A wide access does at every address what an
access of one byte does there: to read is to read the bytes and put the digits together, to write is
to write the digits.

## Where a wide access ends

A device serves a wide access byte by byte. If all of the bytes lie in its range, they are read and
put together; otherwise the access ends at the first address that is not the device's own, and never
at an address below its first one, since no device claims the last address. A wide write that is
refused half way has written the bytes below the refused one and nothing else.
-/

namespace CalcWatch

/-! ## The bytes of a value -/

/-! ### Addresses -/

namespace Width

def addresses (width : Width) (a : UInt32) : List UInt32 :=
  (List.range width.bytes).map fun i ↦ a + UInt32.ofNat i

variable (width : Width) (a : UInt32)

theorem bytes_pos : 0 < width.bytes := by cases width <;> decide

theorem bytes_le : width.bytes ≤ 8 := by cases width <;> decide

theorem addresses_eq_cons : ∃ rest, width.addresses a = a :: rest := by
  cases width <;> exact ⟨_, congrArg (· :: _) (add_ofNat_zero a)⟩

theorem nodup_addresses : (width.addresses a).Nodup := by
  refine List.Nodup.map_on (fun i hi j hj h ↦ ?_) List.nodup_range
  have hwidth := width.bytes_le
  have hlt : ∀ {i}, i ∈ List.range width.bytes → i < 2 ^ 32 := by
    intro i hi
    rw [List.mem_range] at hi
    omega
  have heq := congrArg UInt32.toNat ((UInt32.add_right_inj a).mp h)
  rwa [UInt32.toNat_ofNat_of_lt' (hlt hi), UInt32.toNat_ofNat_of_lt' (hlt hj)] at heq

end Width

namespace ByteOrder

/-! ### Values -/

/-- The bytes from the least significant on, if they are given in the order of their addresses. -/
def ascending : ByteOrder → List UInt8 → List UInt8
  | little, bytes => bytes
  | big, bytes => bytes.reverse

/-- The value of bytes that are given in the order of their addresses. -/
def value (order : ByteOrder) (bytes : List UInt8) : ℕ :=
  Nat.ofDigits 256 ((order.ascending bytes).map UInt8.toNat)

/-- The last `n` bytes of a value in the order of their addresses. -/
def split (order : ByteOrder) (n v : ℕ) : List UInt8 :=
  (List.range n).map fun i ↦ byteAt v (order.place n i)

theorem toNat_byteAt (v place : ℕ) : (byteAt v place).toNat = v / 256 ^ place % 256 :=
  UInt8.toNat_ofNat

theorem ascending_split (order : ByteOrder) (n v : ℕ) :
    order.ascending (order.split n v) = (List.range n).map (byteAt v) := by
  cases order with
  | little => rfl
  | big =>
    refine List.ext_getElem (by simp [ascending, split]) fun i hi hi' ↦ ?_
    have hlt : i < n := by simpa using hi'
    have hplace : n - 1 - (n - 1 - i) = i := by omega
    simp [ascending, split, place, hplace]

/-- The bytes of a value have the value again, as far as they reach. -/
theorem value_split (order : ByteOrder) (n v : ℕ) :
    order.value (order.split n v) = v % 256 ^ n := by
  rw [value, ascending_split, List.map_map]
  induction n with
  | zero => simp [Nat.mod_one]
  | succ n ih =>
    rw [List.range_succ, List.map_append, Nat.ofDigits_append, ih, List.length_map,
      List.length_range, List.map_singleton, Nat.ofDigits_singleton, Nat.mod_pow_succ]
    exact congrArg (_ + _ * ·) (toNat_byteAt v n)

/-! #### A value that is put together byte by byte -/

private theorem foldl_zip_little (bytes : List UInt8) (k v : ℕ) :
    ((List.range' k bytes.length).zip bytes).foldl (fun v ib ↦ v + ib.2.toNat * weight ib.1) v =
      v + 256 ^ k * little.value bytes := by
  induction bytes generalizing k v with
  | nil => rfl
  | cons byte bytes ih =>
    have hvalue : little.value (byte :: bytes) = byte.toNat + 256 * little.value bytes :=
      Nat.ofDigits_cons
    rw [List.length_cons, List.range'_succ, List.zip_cons_cons, List.foldl_cons, ih, hvalue]
    change v + byte.toNat * 256 ^ k + _ = _
    ring

private theorem foldl_zip_big (bytes : List UInt8) (k v : ℕ) :
    ((List.range' k bytes.length).zip bytes).foldl
        (fun v ib ↦ v + ib.2.toNat * weight (k + bytes.length - 1 - ib.1)) v =
      v + big.value bytes := by
  induction bytes generalizing k v with
  | nil => rfl
  | cons byte bytes ih =>
    have hvalue : big.value (byte :: bytes) =
        big.value bytes + 256 ^ bytes.length * byte.toNat := by
      have hdigits := Nat.ofDigits_reverse_cons (b := 256) (bytes.map UInt8.toNat) byte.toNat
      rw [List.length_map, ← List.map_cons, ← List.map_reverse, ← List.map_reverse] at hdigits
      exact hdigits
    have hlast : k + (bytes.length + 1) - 1 - k = bytes.length := by omega
    have hrest : k + (bytes.length + 1) = k + 1 + bytes.length := by omega
    rw [List.length_cons, List.range'_succ, List.zip_cons_cons, List.foldl_cons, hlast, hrest, ih,
      hvalue]
    change v + byte.toNat * 256 ^ bytes.length + _ = _
    ring

theorem foldl_zip_range (order : ByteOrder) (bytes : List UInt8) :
    ((List.range bytes.length).zip bytes).foldl
        (fun v ib ↦ v + ib.2.toNat * weight (order.place bytes.length ib.1)) 0 =
      order.value bytes := by
  rw [List.range_eq_range']
  cases order with
  | little =>
    refine (foldl_zip_little bytes 0 0).trans ?_
    ring
  | big =>
    have hvalue := foldl_zip_big bytes 0 0
    rw [zero_add, zero_add] at hvalue
    exact hvalue

/-! ### Wide accesses -/

variable {σ : Type}

private theorem map_id_range (n : ℕ) :
    (List.range n).map id = List.range' 0 (List.range n).length := by
  rw [List.map_id, List.length_range, List.range_eq_range']

/-- To read a value is to read its bytes, if there is nothing to be read at the last address. -/
theorem answer_compose {read : UInt32 → σ → Except Fault UInt8}
    (hlast : ∀ s byte, read lastAddress s ≠ .ok byte) (order : ByteOrder) (width : Width)
    (a : UInt32) (s : σ) :
    (order.compose width a fun b ↦ Faulting.ask (read b)).answer s =
      ((width.addresses a).mapM (read · s)).map order.value := by
  have hsteps := Faulting.foldlM_byteAddress
    (fun v i b ↦ do
      let byte ← Faulting.ask (read b)
      pure (v + byte.toNat * weight (order.place width.bytes i)))
    (fun v i ↦ (Faulting.fails_ask hlast).bind _) a.toNat_lt
    (map_id_range width.bytes) 0
  have hasked := Faulting.answer_foldlM_ask (fun i ↦ read (a + UInt32.ofNat i))
    (fun v i byte ↦ v + byte.toNat * weight (order.place width.bytes i))
    (List.range width.bytes) 0 s
  have hcompose := (congrArg (Faulting.answer · s) hsteps).trans hasked
  have hmap : (width.addresses a).mapM (read · s) =
      (List.range width.bytes).mapM fun i ↦ read (a + UInt32.ofNat i) s := List.mapM_map
  refine hcompose.trans ?_
  rw [hmap]
  cases hbytes : (List.range width.bytes).mapM fun i ↦ read (a + UInt32.ofNat i) s with
  | error f => rfl
  | ok bytes =>
    have hlength := (mapM_eq_ok_iff.mp hbytes).length_eq
    rw [List.length_range] at hlength
    rw [hlength]
    exact congrArg Except.ok (order.foldl_zip_range bytes)

/-- The bytes of a value with the addresses where they go. -/
def stores (order : ByteOrder) (width : Width) (a : UInt32) (v : ℕ) : List (UInt32 × UInt8) :=
  (width.addresses a).zip (order.split width.bytes v)

theorem stores_eq_map (order : ByteOrder) (width : Width) (a : UInt32) (v : ℕ) :
    order.stores width a v = (List.range width.bytes).map fun i ↦
      (a + UInt32.ofNat i, byteAt v (order.place width.bytes i)) :=
  List.zip_map'

theorem stores_eq_cons (order : ByteOrder) (width : Width) (a : UInt32) (v : ℕ) :
    ∃ byte rest, order.stores width a v = (a, byte) :: rest := by
  obtain ⟨n, hn⟩ := Nat.exists_eq_succ_of_ne_zero width.bytes_pos.ne'
  rw [stores_eq_map, hn, List.range_succ_eq_map, List.map_cons, add_ofNat_zero]
  exact ⟨_, _, rfl⟩

theorem map_fst_stores (order : ByteOrder) (width : Width) (a : UInt32) (v : ℕ) :
    (order.stores width a v).map Prod.fst = width.addresses a := by
  rw [stores_eq_map, List.map_map]
  rfl

theorem nodup_stores (order : ByteOrder) (width : Width) (a : UInt32) (v : ℕ) :
    ((order.stores width a v).map Prod.fst).Nodup := by
  rw [map_fst_stores]
  exact width.nodup_addresses a

/-- To write a value is to write its bytes, if nothing can be written at the last address. -/
theorem decompose_eq_forM {write : UInt32 → UInt8 → Faulting σ Unit}
    (hlast : ∀ byte, Faulting.Fails (write lastAddress byte)) (order : ByteOrder) (width : Width)
    (a : UInt32) (v : ℕ) :
    order.decompose width a v write =
      (order.stores width a v).forM fun store ↦ write store.1 store.2 := by
  rw [stores_eq_map, Faulting.forM_map]
  exact Faulting.forM_byteAddress
    (fun i b ↦ write b (byteAt v (order.place width.bytes i))) (fun _ ↦ hlast _)
    (map_id_range width.bytes) a

end ByteOrder

/-! ## Where a wide access ends -/

namespace Device

variable {device device' : Device} {width : Width} {a b : UInt32} {j v : ℕ} {f : Fault}
  {stores : List (UInt32 × UInt8)}

/-! ### Where an access ends -/

theorem contains_lastAddress (device : Device) : device.contains lastAddress = false := by
  rw [Bool.eq_false_iff]
  intro h
  have hlt : lastAddress.toNat + 1 < addressCount := AddressRange.lt_of_contains h
  exact absurd hlt (by decide)

/-- All bytes of an access lie in the range of the device. -/
def Spans (device : Device) (width : Width) (a : UInt32) : Prop :=
  device.range.low ≤ a ∧ a.toNat + width.bytes ≤ device.range.high.toNat

/-- From `a` on, `b` is the first address that the device does not claim. -/
structure EndsAt (device : Device) (a b : UInt32) : Prop where
  le : a ≤ b
  outside : device.contains b = false
  before : ∀ c, a ≤ c → c < b → device.contains c = true

/-- The address after a run of claimed ones does not wrap. -/
theorem lt_of_contains_before (h : ∀ i < j, device.contains (a + UInt32.ofNat i) = true) :
    a.toNat + j < addressCount := by
  induction j with
  | zero => exact a.toNat_lt
  | succ j ih =>
    have hlt := ih fun i hi ↦ h i (Nat.lt_succ_of_lt hi)
    have hlast := AddressRange.lt_of_contains (h j (Nat.lt_succ_self j))
    rwa [toNat_add_ofNat hlt] at hlast

theorem spans_iff :
    device.Spans width a ↔ ∀ i < width.bytes, device.contains (a + UInt32.ofNat i) = true := by
  constructor
  · rintro ⟨hlow, hhigh⟩ i hi
    rw [UInt32.le_iff_toNat_le] at hlow
    have hbound : device.range.high.toNat < addressCount := device.range.high.toNat_lt
    have haddress : (a + UInt32.ofNat i).toNat = a.toNat + i := toNat_add_ofNat (by omega)
    refine AddressRange.contains_iff.mpr ⟨?_, ?_⟩
    · rw [UInt32.le_iff_toNat_le]
      omega
    · rw [UInt32.lt_iff_toNat_lt]
      omega
  · intro h
    obtain ⟨n, hn⟩ := Nat.exists_eq_succ_of_ne_zero width.bytes_pos.ne'
    have hlow := (AddressRange.contains_iff.mp (h 0 width.bytes_pos)).1
    rw [add_ofNat_zero] at hlow
    refine ⟨hlow, ?_⟩
    have hlt : a.toNat + n < addressCount := lt_of_contains_before fun i hi ↦ h i (by omega)
    have hhigh := (AddressRange.contains_iff.mp (h n (by omega))).2
    rw [UInt32.lt_iff_toNat_lt, toNat_add_ofNat hlt] at hhigh
    omega

theorem endsAt_of_contains_before (h : ∀ i < j, device.contains (a + UInt32.ofNat i) = true)
    (hout : device.contains (a + UInt32.ofNat j) = false) :
    device.EndsAt a (a + UInt32.ofNat j) := by
  have hj : (a + UInt32.ofNat j).toNat = a.toNat + j := toNat_add_ofNat (lt_of_contains_before h)
  refine ⟨?_, hout, fun c hac hcb ↦ ?_⟩
  · rw [UInt32.le_iff_toNat_le]
    omega
  · rw [UInt32.le_iff_toNat_le] at hac
    rw [UInt32.lt_iff_toNat_lt, hj] at hcb
    have hc : c = a + UInt32.ofNat (c.toNat - a.toNat) := by
      rw [← UInt32.toNat_inj, toNat_add_ofNat (by have := c.toNat_lt; unfold addressCount; omega)]
      omega
    rw [hc]
    exact h _ (by omega)

/-! ### Reading -/

theorem read_of_not_contains (h : device.contains a = false) :
    device.read a = .error (.unmappedAddress a) := by
  have hnone : device.content? a = none := by
    rw [← Option.not_isSome_iff_eq_none, Bool.not_eq_true]
    cases device <;> rwa [content?, Option.isSome_map, AddressRange.isSome_index?]
  rw [read_eq_content?, hnone]

theorem contains_of_read {byte : UInt8} (h : device.read a = .ok byte) :
    device.contains a = true := by
  by_contra hcontains
  rw [read_of_not_contains (Bool.eq_false_iff.mpr hcontains)] at h
  cases h

theorem order_blank (device : Device) : device.blank.order = device.order := by
  cases device <;> rfl

theorem readWide_eq (device : Device) (width : Width) (a : UInt32) :
    device.readWide width a =
      ((width.addresses a).mapM device.read).map device.order.value := by
  refine ByteOrder.answer_compose (fun device byte h ↦ ?_) device.order width a device
  have hlast := contains_of_read h
  rw [contains_lastAddress] at hlast
  cases hlast

/-- What a wide read of the device answers. -/
structure ReadsBytes (device : Device) (width : Width) (a : UInt32) : Prop where
  /-- The access succeeds if it lies in the range. -/
  spans : (∃ v, device.readWide width a = .ok v) ↔ device.Spans width a
  /-- The value is put together from the bytes, in the byte order of the device. -/
  composed : ∀ v, device.readWide width a = .ok v → ∃ bytes,
    (width.addresses a).mapM device.read = .ok bytes ∧ v = device.order.value bytes
  /-- If the access fails, it ends at the first address outside of the range. -/
  ends : ∀ f, device.readWide width a = .error f → ∃ b,
    device.EndsAt a b ∧ f = .unmappedAddress b

theorem spans_of_mapM_read {bytes : List UInt8}
    (h : (width.addresses a).mapM device.read = .ok bytes) : device.Spans width a := by
  refine spans_iff.mpr fun i hi ↦ ?_
  obtain ⟨byte, hread⟩ := exists_of_mem_of_mapM h
    (List.mem_map.mpr ⟨i, List.mem_range.mpr hi, rfl⟩)
  exact contains_of_read hread

theorem endsAt_of_mapM_read (h : (width.addresses a).mapM device.read = .error f) :
    ¬device.Spans width a ∧ ∃ b, device.EndsAt a b ∧ f = .unmappedAddress b := by
  obtain ⟨before, refused, after, hsplit, hbefore, hrefused⟩ := exists_of_mapM_error h
  obtain ⟨hlt, hearlier, rfl⟩ := eq_of_map_range_eq_append hsplit
  -- a claimed address can be read, so the address that was refused is not claimed
  have hout : device.contains (a + UInt32.ofNat before.length) = false := by
    rw [Bool.eq_false_iff]
    intro hcontains
    obtain ⟨byte, hread⟩ := exists_read_of_contains hcontains
    rw [hread] at hrefused
    cases hrefused
  have hclaimed : ∀ i < before.length, device.contains (a + UInt32.ofNat i) = true := by
    intro i hi
    obtain ⟨byte, hread⟩ := hbefore _ (hearlier i hi)
    exact contains_of_read hread
  rw [read_of_not_contains hout] at hrefused
  cases hrefused
  refine ⟨fun hspans ↦ ?_, _, endsAt_of_contains_before hclaimed hout, rfl⟩
  rw [spans_iff.mp hspans _ hlt] at hout
  cases hout

theorem readsBytes (device : Device) (width : Width) (a : UInt32) : device.ReadsBytes width a := by
  have hread := device.readWide_eq width a
  cases hbytes : (width.addresses a).mapM device.read with
  | ok bytes =>
    rw [hbytes] at hread
    refine ⟨⟨fun _ ↦ spans_of_mapM_read hbytes, fun _ ↦ ⟨_, hread⟩⟩, fun v hv ↦ ?_, fun f hf ↦ ?_⟩
    · rw [hread] at hv
      cases hv
      exact ⟨bytes, hbytes, rfl⟩
    · rw [hread] at hf
      cases hf
  | error f =>
    rw [hbytes] at hread
    obtain ⟨hspans, hends⟩ := endsAt_of_mapM_read hbytes
    refine ⟨⟨fun ⟨v, hv⟩ ↦ ?_, fun h ↦ absurd h hspans⟩, fun v hv ↦ ?_, fun g hg ↦ ?_⟩
    · rw [hread] at hv
      cases hv
    · rw [hread] at hv
      cases hv
    · rw [hread] at hg
      cases hg
      exact hends

/-! ### Bytes one after the other -/

/-- What a cell of the device has room for. A port takes any byte. -/
def Admits (byte : UInt8) : Device → Prop
  | store cells => byte ≤ cells.width.largest
  | latch _ => True

theorem check_eq_ok_iff {byte : UInt8} :
    device.check a byte = .ok () ↔ device.contains a = true ∧ device.Admits byte := by
  cases device with
  | store cells =>
    change cells.check a byte = .ok () ↔ cells.range.contains a = true ∧ _
    rw [CellStore.check]
    by_cases hcontains : cells.range.contains a = true
    · by_cases hfits : byte ≤ cells.width.largest <;> simp [hcontains, hfits, Admits]
    · simp [hcontains]
  | latch ports =>
    change ports.check a = .ok () ↔ ports.range.contains a = true ∧ True
    rw [PortLatch.check]
    by_cases hcontains : ports.range.contains a = true <;> simp [hcontains]

def writeAll (stores : List (UInt32 × UInt8)) : Faulting Device Unit :=
  stores.forM fun store ↦ write store.1 store.2

theorem writeAll_cons (store : UInt32 × UInt8) (stores : List (UInt32 × UInt8)) :
    writeAll (store :: stores) = (write store.1 store.2 >>= fun _ ↦ writeAll stores) := rfl

/-- From `device` to `device'` exactly these bytes were written. -/
structure Written (device : Device) (stores : List (UInt32 × UInt8)) (device' : Device) : Prop where
  /-- Nothing but contents has changed. -/
  blank : device'.blank = device.blank
  /-- Every byte has gone into the cell or to the port at its address. -/
  stored : ∀ store ∈ stores, device'.content? store.1 =
    (device.content? store.1).map (Content.written device.captureLimit store.2)
  /-- All other contents are as before. -/
  others : ∀ b, (∀ store ∈ stores, store.1 ≠ b) → device'.content? b = device.content? b

theorem written_of_writeAll (hnodup : (stores.map Prod.fst).Nodup)
    (h : writeAll stores device = .ok () device') : device.Written stores device' := by
  induction stores generalizing device with
  | nil =>
    cases h
    exact ⟨rfl, nofun, fun _ _ ↦ rfl⟩
  | cons store stores ih =>
    obtain ⟨hfirst, hnodup⟩ := List.nodup_cons.mp hnodup
    obtain ⟨_, next, hwrite, hrest⟩ := Faulting.exists_of_bind_ok h
    obtain ⟨-, rfl⟩ := Faulting.eq_of_guarded_ok hwrite
    have hlater := ih hnodup hrest
    -- later bytes go to other addresses, so the first one stays where it was put
    have hne : ∀ later ∈ stores, later.1 ≠ store.1 := by
      intro later hmem heq
      exact hfirst (heq ▸ List.mem_map_of_mem hmem)
    refine ⟨hlater.blank.trans (device.blank_put store.2), ?_, fun b hb ↦ ?_⟩
    · rw [List.forall_mem_cons]
      refine ⟨?_, fun later hmem ↦ ?_⟩
      · rw [hlater.others store.1 hne, device.content?_put_self]
      · rw [hlater.stored later hmem, device.content?_put_of_ne store.2 (hne later hmem).symm,
          eq_of_blank captureLimit captureLimit_blank (device.blank_put store.2)]
    · rw [List.forall_mem_cons] at hb
      rw [hlater.others b hb.2, device.content?_put_of_ne store.2 hb.1]

theorem exists_writeAll_iff : (∃ device', writeAll stores device = .ok () device') ↔
    ∀ store ∈ stores, device.check store.1 store.2 = .ok () := by
  induction stores generalizing device with
  | nil => exact ⟨fun _ ↦ nofun, fun _ ↦ ⟨device, rfl⟩⟩
  | cons store stores ih =>
    have hsame : ∀ later : UInt32 × UInt8, (device.put store.1 store.2).check later.1 later.2 =
        device.check later.1 later.2 := fun later ↦
      eq_of_blank (·.check later.1 later.2) (·.check_blank later.2 later.1)
        (device.blank_put store.2)
    have hrest : (∃ device', writeAll stores (device.put store.1 store.2) = .ok () device') ↔
        ∀ later ∈ stores, device.check later.1 later.2 = .ok () := by
      simp only [ih, hsame]
    rw [List.forall_mem_cons, ← hrest]
    constructor
    · rintro ⟨device', h⟩
      obtain ⟨_, next, hwrite, hlater⟩ := Faulting.exists_of_bind_ok h
      obtain ⟨hcheck, rfl⟩ := Faulting.eq_of_guarded_ok hwrite
      exact ⟨hcheck, device', hlater⟩
    · rintro ⟨hcheck, device', hlater⟩
      exact ⟨device', (Faulting.bind_of_ok (Faulting.guarded_of_ok _ hcheck)).trans hlater⟩

theorem exists_of_writeAll_error (h : writeAll stores device = .error f device') :
    ∃ before refused after, stores = before ++ refused :: after ∧
      writeAll before device = .ok () device' ∧
      device'.check refused.1 refused.2 = .error f := by
  obtain ⟨before, refused, after, t, hsplit, hbefore, hrefused⟩ := Faulting.exists_of_forM_error h
  obtain ⟨hcheck, rfl⟩ := Faulting.eq_of_guarded_error hrefused
  exact ⟨before, refused, after, hsplit, hbefore, hcheck⟩

/-! ### Writing -/

theorem writeWide_eq (device : Device) (width : Width) (a : UInt32) (v : ℕ) :
    writeWide width a v device = writeAll (device.order.stores width a v) device := by
  have hlast : ∀ byte, Faulting.Fails (write lastAddress byte) := by
    intro byte device _ device' h
    have hclaims := (check_eq_ok_iff.mp (Faulting.eq_of_guarded_ok h).1).1
    rw [contains_lastAddress] at hclaims
    cases hclaims
  exact congrFun (ByteOrder.decompose_eq_forM hlast device.order width a v) device

/-- What a wide write to the device does. -/
structure WritesBytes (device : Device) (width : Width) (a : UInt32) (v : ℕ) : Prop where
  /-- The access succeeds if it lies in the range and the device has room for every byte. -/
  spans : (∃ device', writeWide width a v device = .ok () device') ↔
    device.Spans width a ∧ ∀ byte ∈ device.order.split width.bytes v, device.Admits byte
  /-- All bytes are written then. -/
  written : ∀ device', writeWide width a v device = .ok () device' →
    device.Written (device.order.stores width a v) device'
  /-- From cells the value is read back. -/
  readBack : ∀ device' cells, device = .store cells → v < 256 ^ width.bytes →
    writeWide width a v device = .ok () device' → device'.readWide width a = .ok v
  /-- If the access fails, the bytes before the refused one are written. -/
  stopped : ∀ f device', writeWide width a v device = .error f device' →
    ∃ j < width.bytes, a.toNat + j < addressCount ∧
      device.check (a + UInt32.ofNat j)
        (ByteOrder.byteAt v (device.order.place width.bytes j)) = .error f ∧
      device.Written ((device.order.stores width a v).take j) device'

theorem Written.read_of_store {cells : CellStore} {store : UInt32 × UInt8}
    (h : Written (.store cells) stores device') (hmem : store ∈ stores)
    (hclaims : cells.range.contains store.1 = true) : device'.read store.1 = .ok store.2 := by
  obtain ⟨i, hi⟩ := Option.isSome_iff_exists.mp
    ((cells.range.isSome_index? store.1).trans hclaims)
  rw [read_eq_content?, h.stored store hmem, content?, hi]
  rfl

theorem exists_writeWide_iff : (∃ device', writeWide width a v device = .ok () device') ↔
    device.Spans width a ∧ ∀ byte ∈ device.order.split width.bytes v, device.Admits byte := by
  simp only [writeWide_eq, exists_writeAll_iff, ByteOrder.stores_eq_map, ByteOrder.split,
    List.forall_mem_map, List.mem_range, check_eq_ok_iff, spans_iff]
  exact forall₂_and

theorem readWide_of_written {cells : CellStore}
    (h : Written (.store cells) (cells.order.stores width a v) device')
    (hspans : Spans (.store cells) width a) (hv : v < 256 ^ width.bytes) :
    device'.readWide width a = .ok v := by
  have horder : device'.order = cells.order := eq_of_blank order order_blank h.blank
  have hbytes : (width.addresses a).mapM device'.read = .ok (cells.order.split width.bytes v) := by
    rw [mapM_eq_ok_iff, Width.addresses, ByteOrder.split, List.forall₂_map_left_iff,
      List.forall₂_map_right_iff, List.forall₂_same]
    intro i hi
    have hclaims := spans_iff.mp hspans i (List.mem_range.mp hi)
    have hmem : (a + UInt32.ofNat i, ByteOrder.byteAt v (cells.order.place width.bytes i)) ∈
        cells.order.stores width a v := by
      rw [ByteOrder.stores_eq_map]
      exact List.mem_map_of_mem hi
    exact h.read_of_store hmem hclaims
  rw [readWide_eq, hbytes, horder]
  change Except.ok (cells.order.value _) = _
  rw [ByteOrder.value_split, Nat.mod_eq_of_lt hv]

theorem exists_of_writeWide_error (h : writeWide width a v device = .error f device') :
    ∃ j < width.bytes, a.toNat + j < addressCount ∧
      device.check (a + UInt32.ofNat j)
        (ByteOrder.byteAt v (device.order.place width.bytes j)) = .error f ∧
      device.Written ((device.order.stores width a v).take j) device' := by
  rw [writeWide_eq] at h
  obtain ⟨before, refused, after, hsplit, hbefore, hcheck⟩ := exists_of_writeAll_error h
  have hsplit' := hsplit
  rw [ByteOrder.stores_eq_map] at hsplit'
  obtain ⟨hlt, hearlier, rfl⟩ := eq_of_map_range_eq_append hsplit'
  -- the bytes before the refused one are the ones that have a smaller index
  have htake : (device.order.stores width a v).take before.length = before := by
    rw [hsplit, List.take_left]
  have hwritten : device.Written before device' := by
    refine written_of_writeAll ?_ hbefore
    have hnodup := device.order.nodup_stores width a v
    rw [hsplit, List.map_append] at hnodup
    exact hnodup.of_append_left
  refine ⟨before.length, hlt, ?_, ?_, htake.symm ▸ hwritten⟩
  · have hclaims : ∀ i < before.length, device.contains (a + UInt32.ofNat i) = true := by
      intro i hi
      have hcheck := exists_writeAll_iff.mp ⟨device', hbefore⟩ _ (hearlier i hi)
      exact (check_eq_ok_iff.mp hcheck).1
    exact lt_of_contains_before hclaims
  · rw [← hcheck]
    exact (eq_of_blank (·.check _ _) (·.check_blank _ _) hwritten.blank).symm

theorem writesBytes (device : Device) (width : Width) (a : UInt32) (v : ℕ) :
    device.WritesBytes width a v := by
  have hwritten : ∀ device', writeWide width a v device = .ok () device' →
      device.Written (device.order.stores width a v) device' := by
    intro device' h
    rw [writeWide_eq] at h
    exact written_of_writeAll (device.order.nodup_stores width a v) h
  refine ⟨exists_writeWide_iff, hwritten, ?_, fun f device' ↦ exists_of_writeWide_error⟩
  rintro device' cells rfl hv h
  exact readWide_of_written (hwritten device' h) (exists_writeWide_iff.mp ⟨device', h⟩).1 hv

end Device

end CalcWatch
