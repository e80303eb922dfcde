import CalcWatch.Bus
import CalcWatch.Proofs.Computations
import Mathlib.Data.List.Basic

/-!
# Accesses of a bus

A bus hands an access to one of its devices. Everything that is said of buses later goes back to two
questions: which device it is, and what the access does to that device.

## The device that an access uses

A bus hands an access to one device and puts the device back in its place afterwards. So what an
access does to a bus is what it does to the device that serves the address, and this goes for an
access that fails half way as well. `ServedBy` names the device together with its place, because
what is put back has to go to the place it was taken from, and two devices of a bus may be equal.

## Bytes written one after the other

A byte that is refused leaves the bus as it was. So after a sequence of bytes that could not be
written to its end, the bus is as the bytes before the refused one left it, and these alone would
have been written without a fault. This is how all partial effects are told from here on: as a
shorter sequence of bytes, written to its end.
-/

namespace CalcWatch.Bus

/-! ## The device that an access uses -/

section

variable {α : Type} {bus bus' : Bus} {a : UInt32} {value : UInt8} {i : ℕ} {device device' : Device}
  {f : Fault}

/-! ### Which device it is -/

/-- A device before device `i` claims the address. -/
def Shadowed (bus : Bus) (i : ℕ) (a : UInt32) : Prop :=
  ∃ j < i, ∃ device, bus.devices[j]? = some device ∧ device.contains a = true

/-- Device `i` serves the address. -/
structure ServedBy (bus : Bus) (a : UInt32) (i : ℕ) (device : Device) : Prop where
  getElem? : bus.devices[i]? = some device
  contains : device.contains a = true
  /-- No earlier device claims the address. -/
  first : ¬bus.Shadowed i a

/-- The first device that claims the address serves it. -/
theorem serving?_eq_some_iff :
    bus.serving? a = some device ↔ ∃ i, bus.ServedBy a i device := by
  rw [serving?, List.find?_eq_some_iff_getElem]
  constructor
  · rintro ⟨hclaims, i, hi, hdevice, hfirst⟩
    refine ⟨i, List.getElem?_eq_some_iff.mpr ⟨hi, hdevice⟩, hclaims, ?_⟩
    rintro ⟨j, hj, earlier, hearlier, hcontains⟩
    obtain ⟨_, rfl⟩ := List.getElem?_eq_some_iff.mp hearlier
    have hfalse := hfirst j hj
    rw [hcontains] at hfalse
    cases hfalse
  · rintro ⟨i, hi, hclaims, hfirst⟩
    obtain ⟨hlt, hdevice⟩ := List.getElem?_eq_some_iff.mp hi
    refine ⟨hclaims, i, hlt, hdevice, fun j hj ↦ ?_⟩
    rw [Bool.not_eq_true', Bool.eq_false_iff]
    exact fun hcontains ↦ hfirst ⟨j, hj, _, List.getElem?_eq_getElem _, hcontains⟩

theorem ServedBy.serving? (h : bus.ServedBy a i device) : bus.serving? a = some device :=
  serving?_eq_some_iff.mpr ⟨i, h⟩

theorem resolve_eq_ok_iff : bus.resolve a = .ok i ↔ ∃ device, bus.ServedBy a i device := by
  have hfound : bus.resolve a = .ok i ↔ bus.devices.findIdx? (·.contains a) = some i := by
    rw [resolve]
    split <;> simp [*]
  rw [hfound, List.findIdx?_eq_some_iff_getElem]
  constructor
  · rintro ⟨hi, hclaims, hfirst⟩
    refine ⟨_, List.getElem?_eq_getElem hi, hclaims, ?_⟩
    rintro ⟨j, hj, earlier, hearlier, hcontains⟩
    obtain ⟨_, rfl⟩ := List.getElem?_eq_some_iff.mp hearlier
    exact hfirst j hj hcontains
  · rintro ⟨device, hi, hclaims, hfirst⟩
    obtain ⟨hlt, rfl⟩ := List.getElem?_eq_some_iff.mp hi
    refine ⟨hlt, hclaims, fun j hj hcontains ↦ hfirst ⟨j, hj, _, ?_, hcontains⟩⟩
    exact List.getElem?_eq_getElem _

theorem resolve_eq_error_iff :
    bus.resolve a = .error f ↔ bus.serving? a = none ∧ f = .unmappedAddress a := by
  have hnone : bus.devices.findIdx? (·.contains a) = none ↔ bus.serving? a = none := by
    rw [List.findIdx?_eq_none_iff, serving?, List.find?_eq_none]
    simp
  rw [← hnone, resolve]
  split <;> simp [*, eq_comm]

/-! ### The device in its place -/

/-- The bus with another device in one place. -/
def replace (bus : Bus) (i : ℕ) (device : Device) : Bus :=
  { bus with devices := bus.devices.set i device }

theorem replace_replace (bus : Bus) (i : ℕ) (device device' : Device) :
    (bus.replace i device).replace i device' = bus.replace i device' := by
  rw [replace, replace, replace, List.set_set]

theorem replace_self (hi : bus.devices[i]? = some device) : bus.replace i device = bus := by
  obtain ⟨hlt, rfl⟩ := List.getElem?_eq_some_iff.mp hi
  rw [replace, List.set_getElem_self]

theorem getElem?_replace_self (hi : bus.devices[i]? = some device) :
    (bus.replace i device').devices[i]? = some device' :=
  List.getElem?_set_self (List.getElem?_eq_some_iff.mp hi).1

/-! ### What the access does -/

/-- The outcome of an access to device `i`, which is put back in its place. -/
def carry (bus : Bus) (i : ℕ) : EStateM.Result Fault Device α → EStateM.Result Fault Bus α
  | .ok x device => .ok x (bus.replace i device)
  | .error f device => .error f (bus.replace i device)

private theorem serve_of_first {devices : List Device} (hi : devices[i]? = some device)
    (hclaims : device.contains a = true)
    (hfirst : ∀ j < i, ∀ earlier, devices[j]? = some earlier → earlier.contains a = false)
    (use : Faulting Device α) : serve a use devices =
      match use device with
      | .ok x device' => .ok x (devices.set i device')
      | .error f device' => .error f (devices.set i device') := by
  induction devices generalizing i with
  | nil => cases hi
  | cons head rest ih =>
    cases i with
    | zero =>
      cases hi
      rw [serve, if_pos hclaims]
      split <;> simp [*]
    | succ i =>
      have hhead : head.contains a = false := hfirst 0 (Nat.succ_pos i) head rfl
      have hrest := ih hi fun j hj ↦ hfirst (j + 1) (Nat.succ_lt_succ hj)
      rw [serve, hhead, if_neg Bool.false_ne_true, hrest]
      cases use device <;> rfl

/-- What an access does to the bus is what it does to the device that serves the address. -/
theorem access_of_servedBy (h : bus.ServedBy a i device) (use : Faulting Device α) :
    access a use bus = bus.carry i (use device) := by
  obtain ⟨name, devices⟩ := bus
  have hfirst : ∀ j < i, ∀ earlier, devices[j]? = some earlier → earlier.contains a = false := by
    intro j hj earlier hearlier
    rw [Bool.eq_false_iff]
    exact fun hcontains ↦ h.first ⟨j, hj, earlier, hearlier, hcontains⟩
  rw [access, serve_of_first h.getElem? h.contains hfirst]
  cases use device <;> rfl

theorem access_of_not_served (h : bus.serving? a = none) (use : Faulting Device α) :
    access a use bus = .error (.unmappedAddress a) bus := by
  obtain ⟨name, devices⟩ := bus
  have hserve : serve a use devices = .error (.unmappedAddress a) devices := by
    have hnone : ∀ device ∈ devices, device.contains a = false := by
      simpa [serving?] using h
    clear h
    induction devices with
    | nil => rfl
    | cons head rest ih =>
      rw [List.forall_mem_cons] at hnone
      rw [serve, hnone.1, if_neg Bool.false_ne_true, ih hnone.2]
  rw [access, hserve]

theorem access_eq_ok_iff {use : Faulting Device α} {x : α} : access a use bus = .ok x bus' ↔
    ∃ i device device', bus.ServedBy a i device ∧ use device = .ok x device' ∧
      bus' = bus.replace i device' := by
  constructor
  · intro h
    cases hserving : bus.serving? a with
    | none =>
      rw [access_of_not_served hserving] at h
      cases h
    | some device =>
      obtain ⟨i, hserved⟩ := serving?_eq_some_iff.mp hserving
      rw [access_of_servedBy hserved] at h
      cases huse : use device with
      | ok y device' =>
        rw [huse] at h
        cases h
        exact ⟨i, device, device', hserved, huse, rfl⟩
      | error f device' =>
        rw [huse] at h
        cases h
  · rintro ⟨i, device, device', hserved, huse, rfl⟩
    rw [access_of_servedBy hserved, huse]
    rfl

/-- An access fails because no device claims its address, or because it fails on the first device
that does. -/
theorem access_error_cases {use : Faulting Device α} (h : access a use bus = .error f bus') :
    (bus.serving? a = none ∧ f = .unmappedAddress a ∧ bus' = bus) ∨
      ∃ i device device', bus.ServedBy a i device ∧ use device = .error f device' ∧
        bus' = bus.replace i device' := by
  cases hserving : bus.serving? a with
  | none =>
    rw [access_of_not_served hserving] at h
    cases h
    exact .inl ⟨rfl, rfl, rfl⟩
  | some device =>
    obtain ⟨i, hserved⟩ := serving?_eq_some_iff.mp hserving
    rw [access_of_servedBy hserved] at h
    cases huse : use device with
    | ok y device' =>
      rw [huse] at h
      cases h
    | error g device' =>
      rw [huse] at h
      cases h
      exact .inr ⟨i, device, device', hserved, huse, rfl⟩

/-- An access that leaves the device alone when it fails leaves the bus alone. -/
theorem eq_of_access_error {use : Faulting Device α}
    (huse : ∀ {device device' g}, use device = .error g device' → device' = device)
    (h : access a use bus = .error f bus') : bus' = bus := by
  rcases access_error_cases h with ⟨-, -, rfl⟩ | ⟨i, device, device', hserved, hdevice, rfl⟩
  · rfl
  · rw [huse hdevice, replace_self hserved.getElem?]

/-! ### One byte -/

theorem write_eq_ok_iff : write a value bus = .ok () bus' ↔
    ∃ i device, bus.ServedBy a i device ∧ device.writable = true ∧
      device.check a value = .ok () ∧ bus' = bus.replace i (device.put a value) := by
  rw [write, access_eq_ok_iff]
  constructor
  · rintro ⟨i, device, device', hserved, huse, rfl⟩
    rw [ifWritable] at huse
    split at huse
    · obtain ⟨hcheck, rfl⟩ := Faulting.eq_of_guarded_ok huse
      exact ⟨i, device, hserved, ‹_›, hcheck, rfl⟩
    · cases huse
  · rintro ⟨i, device, hserved, hwritable, hcheck, rfl⟩
    refine ⟨i, device, _, hserved, ?_, rfl⟩
    rw [ifWritable, if_pos hwritable]
    exact Faulting.guarded_of_ok _ hcheck

theorem eq_of_ifWritable_error (h : ifWritable a (Device.write a value) device = .error f device') :
    device' = device := by
  rw [ifWritable] at h
  split at h
  · exact (Faulting.eq_of_guarded_error h).2
  · cases h
    rfl

theorem eq_of_write_error (h : write a value bus = .error f bus') : bus' = bus :=
  eq_of_access_error eq_of_ifWritable_error h

end

/-! ## Bytes written one after the other -/

section

variable {bus bus' : Bus} {f : Fault}

/-! ### Sequences of bytes -/

/-- A byte on its way to an address. Where it has to be fetched first, that may fail. -/
abbrev Output := UInt32 × Except Fault UInt8

/-- Bytes that are at hand. -/
def ready (stores : List (UInt32 × UInt8)) : List Output :=
  stores.map fun store ↦ (store.1, .ok store.2)

theorem ready_append (stores stores' : List (UInt32 × UInt8)) :
    ready (stores ++ stores') = ready stores ++ ready stores' :=
  List.map_append

theorem writeAll_nil (bus : Bus) : writeAll [] bus = .ok () bus := rfl

theorem writeAll_cons (store : UInt32 × UInt8) (stores : List (UInt32 × UInt8)) :
    writeAll (store :: stores) = (write store.1 store.2 >>= fun _ ↦ writeAll stores) := rfl

theorem writeAll_append_of_ok {stores stores' : List (UInt32 × UInt8)} {bus'' : Bus}
    (h : writeAll stores bus = .ok () bus') (h' : writeAll stores' bus' = .ok () bus'') :
    writeAll (stores ++ stores') bus = .ok () bus'' := by
  induction stores generalizing bus with
  | nil =>
    cases h
    exact h'
  | cons store stores ih =>
    obtain ⟨_, next, hfirst, hrest⟩ := Faulting.exists_of_bind_ok h
    rw [List.cons_append, writeAll_cons, Faulting.bind_of_ok hfirst]
    exact ih hrest

/-- The first byte to be refused ends the sequence. -/
theorem exists_of_writeAll_error {stores : List (UInt32 × UInt8)}
    (h : writeAll stores bus = .error f bus') :
    ∃ sent refused rest, stores = sent ++ refused :: rest ∧ writeAll sent bus = .ok () bus' ∧
      write refused.1 refused.2 bus' = .error f bus' := by
  obtain ⟨sent, refused, rest, t, hstores, hsent, hrefused⟩ := Faulting.exists_of_forM_error h
  obtain rfl := eq_of_write_error hrefused
  exact ⟨sent, refused, rest, hstores, hsent, hrefused⟩

end

end CalcWatch.Bus
