import CalcWatch.Proofs.Bus.Serving
import CalcWatch.Proofs.Invariants.Parts
import Mathlib.Data.List.DropRight

/-!
# What ports keep on record

A port keeps the bytes that were sent to it, but not all of them and not for ever: the record is cut
back now and then. None of this can be seen from outside.

## The record of a port

What the host sees of a record is always the last bytes up to the limit, as if the record had been
cut after every byte: what has been cut off once is not among the last bytes later,
`rtake_append_rtake`. A byte that is sent to a port is appended there and nowhere else, and the
inputs that a host sets leave all records alone.

## The past of a latch

All that a latch shows of a port can be read off the requests that it was given: the bytes that were
sent to the port since the records were emptied, and the last input that was set for it.

A latch treats each of its ports as if there were no others. So a single port is followed through
all requests first, as the fold `Port.reached` in which requests for other ports do nothing, and
then it is shown that the latch holds just such a port at each of its addresses. The invariant of
the fold has three parts, and one request at the end of the list keeps each of them: the input is
the last one that was set, the record up to its limit is the end of what was sent since it was
emptied, and the record is shorter than twice its limit, or empty where the limit is zero. A write
beyond that length is what cuts the record back, and a byte that is cut off was out of sight before.
-/

namespace CalcWatch

/-! ## The record of a port -/

/-! ### The last bytes -/

/-- What has been cut off a record once is not missed later. -/
theorem rtake_append_rtake {α : Type} (n : ℕ) (xs ys : List α) :
    (xs.rtake n ++ ys).rtake n = (xs ++ ys).rtake n := by
  simp only [List.rtake_eq_reverse_take_reverse, List.reverse_append, List.reverse_reverse,
    List.take_append, List.take_take]
  rw [Nat.min_eq_left (Nat.sub_le _ _)]

theorem rtake_rtake {α : Type} (n : ℕ) (xs : List α) : (xs.rtake n).rtake n = xs.rtake n := by
  have h := rtake_append_rtake n xs []
  rwa [List.append_nil, List.append_nil] at h

namespace Port

variable (port : Port) (limit : ℕ)

theorem recent_eq_rtake : port.recent limit = port.written.toList.rtake limit := rfl

/-- Whether or not the record is cut back, the host sees the last bytes. -/
theorem recent_record (value : UInt8) :
    (port.record limit value).recent limit = (port.recent limit ++ [value]).rtake limit := by
  rw [recent_eq_rtake, recent_eq_rtake, rtake_append_rtake, ← Array.toList_push, record]
  dsimp only
  split
  · have hcut : ∀ written : Array UInt8,
        (written.extract (written.size - limit) written.size).toList
          = written.toList.rtake limit := by
      intro written
      rw [Array.toList_extract, List.extract_eq_take_drop, List.take_of_length_le (by simp),
        List.rtake, Array.length_toList]
    rw [hcut, rtake_rtake]
  · rfl

end Port

/-! ### The records of a device -/

namespace Device

/-- The limit and the record of the port at an address; `none` where the device has no port. -/
def recorder? (a : UInt32) (device : Device) : Option (ℕ × List UInt8) :=
  (device.captured? a).map (device.captureLimit, ·)

variable {device : Device} {a b : UInt32} {limit : ℕ} {bytes : List UInt8}

theorem exists_of_recorder? (h : device.recorder? a = some (limit, bytes)) : ∃ latch,
    device = .latch latch ∧ latch.captureLimit = limit ∧ latch.captured? a = some bytes := by
  cases device with
  | store cells => cases h
  | latch latch =>
    obtain ⟨_, hcaptured, heq⟩ := Option.map_eq_some_iff.mp h
    cases heq
    exact ⟨latch, rfl, rfl, hcaptured⟩

theorem captured?_put_self (device : Device) (a : UInt32) (value : UInt8) :
    (device.put a value).captured? a =
      (device.captured? a).map fun bytes ↦ (bytes ++ [value]).rtake device.captureLimit := by
  rw [captured?_eq_content?, captured?_eq_content?, content?_put_self,
    eq_of_blank captureLimit captureLimit_blank (device.blank_put value)]
  cases device.content? a with
  | none => rfl
  | some content =>
    cases content with
    | cell stored => rfl
    | port port => exact congrArg some (port.recent_record _ value)

theorem recorder?_put_self (h : device.recorder? a = some (limit, bytes)) (value : UInt8) :
    (device.put a value).recorder? a = some (limit, (bytes ++ [value]).rtake limit) := by
  obtain ⟨latch, rfl, rfl, hcaptured⟩ := exists_of_recorder? h
  have hlimit : (put a value (.latch latch)).captureLimit = latch.captureLimit :=
    eq_of_blank captureLimit captureLimit_blank (blank_put _ value)
  have hbytes : captured? (.latch latch) a = some bytes := hcaptured
  rw [recorder?, hlimit, captured?_put_self, hbytes]
  rfl

theorem recorder?_put_of_ne (value : UInt8) (h : a ≠ b) :
    (device.put a value).recorder? b = device.recorder? b := by
  rw [recorder?, recorder?, captured?_eq_content?, captured?_eq_content?,
    device.content?_put_of_ne value h,
    eq_of_blank captureLimit captureLimit_blank (device.blank_put value)]

theorem captured?_install (device : Device) (a b : UInt32) (value : UInt8) :
    (device.install a value).captured? b = device.captured? b := by
  rw [captured?_eq_content?, captured?_eq_content?,
    eq_of_blank captureLimit captureLimit_blank (device.blank_install value)]
  by_cases hab : a = b
  · subst hab
    rw [content?_install_self, Option.bind_map]
    refine Option.bind_congr fun content _ ↦ ?_
    cases content <;> rfl
  · rw [device.content?_install_of_ne value hab]

theorem recorder?_install (device : Device) (a b : UInt32) (value : UInt8) :
    (device.install a value).recorder? b = device.recorder? b := by
  rw [recorder?, recorder?, captured?_install,
    eq_of_blank captureLimit captureLimit_blank (device.blank_install value)]

end Device

/-! ### The records on a bus -/

namespace Bus

open Faulting (finalState)

variable {α β : Type} {bus bus' : Bus} {a b : UInt32} {limit : ℕ} {bytes : List UInt8}

/-- An access keeps what is said of all devices if it keeps it of the one that it uses. -/
theorem map_devices_access {f : Device → β} {use : Faulting Device α}
    (huse : ∀ device, f (finalState (use device)) = f device) (a : UInt32) (bus : Bus) :
    (finalState (access a use bus)).devices.map f = bus.devices.map f := by
  have hserve : ∀ devices : List Device,
      (finalState (serve a use devices)).map f = devices.map f := by
    intro devices
    induction devices with
    | nil => rfl
    | cons device rest ih =>
      rw [serve]
      split
      · have hdevice := huse device
        cases hu : use device <;> rw [hu] at hdevice <;>
          exact congrArg (· :: rest.map f) hdevice
      · cases hs : serve a use rest <;> rw [hs] at ih <;> exact congrArg (f device :: ·) ih
  have hdevices := hserve bus.devices
  obtain ⟨name, devices⟩ := bus
  rw [access]
  cases hs : serve a use devices <;> rw [hs] at hdevices <;> exact hdevices

/-- The limit and the record of the port that serves an address. -/
def recorder? (bus : Bus) (a : UInt32) : Option (ℕ × List UInt8) :=
  (bus.serving? a).bind (·.recorder? a)

theorem captured?_of_recorder? (h : bus.recorder? a = some (limit, bytes)) :
    bus.captured? a = some bytes := by
  obtain ⟨device, hserving, hdevice⟩ := Option.bind_eq_some_iff.mp h
  obtain ⟨latch, rfl, -, hcaptured⟩ := Device.exists_of_recorder? hdevice
  rw [captured?_of_serving hserving]
  exact hcaptured

theorem exists_recorder?_of_serving {latch : PortLatch}
    (h : bus.serving? a = some (.latch latch)) :
    ∃ bytes, bus.recorder? a = some (latch.captureLimit, bytes) := by
  obtain ⟨i, hi⟩ := Option.isSome_iff_exists.mp
    ((latch.range.isSome_index? a).trans (contains_of_serving h))
  refine ⟨latch.ports[i].recent latch.captureLimit, ?_⟩
  rw [recorder?, h, Option.bind_some, Device.recorder?, Device.captured?, PortLatch.captured?, hi]
  rfl

theorem accepts_of_recorder? (h : bus.recorder? a = some (limit, bytes)) : bus.Accepts a := by
  obtain ⟨device, hserving, hdevice⟩ := Option.bind_eq_some_iff.mp h
  obtain ⟨latch, rfl, -, -⟩ := Device.exists_of_recorder? hdevice
  have hcontains : latch.range.contains a = true := contains_of_serving hserving
  refine ⟨_, hserving, rfl, fun value ↦ ?_⟩
  change latch.check a = .ok ()
  rw [PortLatch.check, if_pos hcontains]

theorem rtake_of_recorder? (h : bus.recorder? a = some (limit, bytes)) :
    bytes.rtake limit = bytes := by
  obtain ⟨device, -, hdevice⟩ := Option.bind_eq_some_iff.mp h
  obtain ⟨latch, rfl, rfl, hcaptured⟩ := Device.exists_of_recorder? hdevice
  obtain ⟨i, -, rfl⟩ := Option.map_eq_some_iff.mp hcaptured
  rw [Port.recent_eq_rtake, rtake_rtake]

theorem recorder?_congr (h : bus'.devices.map (fun device ↦ (device.range, device.recorder? a))
      = bus.devices.map fun device ↦ (device.range, device.recorder? a)) :
    bus'.recorder? a = bus.recorder? a := by
  have hfind : ∀ bus : Bus, bus.recorder? a
      = ((bus.devices.map fun device ↦ (device.range, device.recorder? a)).find?
          (·.1.contains a)).bind Prod.snd := by
    intro bus
    rw [List.find?_map, Option.bind_map]
    rfl
  rw [hfind bus', h, ← hfind bus]

/-- A byte that is sent to a port, or refused by it, leaves the records of other ports alone. -/
theorem recorder?_write_of_ne (hne : a ≠ b) (value : UInt8) (bus : Bus) :
    (finalState (write a value bus)).recorder? b = bus.recorder? b := by
  refine recorder?_congr (map_devices_access (fun device ↦ ?_) a bus)
  rw [ifWritable]
  split
  · rw [Device.write, Faulting.guarded]
    split
    · refine Prod.ext ?_ (Device.recorder?_put_of_ne value hne)
      exact Device.eq_of_blank Device.range Device.range_blank (device.blank_put value)
    · rfl
  · rfl

theorem recorder?_write_self (h : bus.recorder? a = some (limit, bytes)) {value : UInt8}
    (hwrite : write a value bus = .ok () bus') :
    bus'.recorder? a = some (limit, (bytes ++ [value]).rtake limit) := by
  obtain ⟨device, hserving, hserving'⟩ := exists_serving?_of_write hwrite
  rw [recorder?, hserving] at h
  rw [recorder?, hserving']
  exact Device.recorder?_put_self h value

/-- Inputs leave all records alone, whether or not there are ports for all of them. -/
theorem recorder?_load (base : UInt32) (inputs : List UInt8) (bus : Bus) (b : UInt32) :
    (finalState (load base inputs bus)).recorder? b = bus.recorder? b := by
  have hkeeps : Faulting.Keeps (fun bus' ↦ bus'.recorder? b = bus.recorder? b)
      (load base inputs) := by
    refine Faulting.keeps_forM (fun input ↦ ?_) _
    refine (Faulting.keeps_ask _).bind fun a bus' h ↦ Eq.trans ?_ h
    refine recorder?_congr (map_devices_access (fun device ↦ ?_) a bus')
    rw [Device.load, Faulting.guarded]
    split
    · refine Prod.ext ?_ (device.recorder?_install a b _)
      exact Device.eq_of_blank Device.range Device.range_blank (device.blank_install _)
    · rfl
  exact hkeeps bus rfl

/-- The bytes that go to one address. -/
def sentTo (a : UInt32) (stores : List (UInt32 × UInt8)) : List UInt8 :=
  (stores.filter (·.1 = a)).map Prod.snd

/-- Of all bytes that are sent, a port records those that are sent to it. -/
theorem recorder?_writeAll {stores : List (UInt32 × UInt8)}
    (h : bus.recorder? a = some (limit, bytes)) (hwrite : writeAll stores bus = .ok () bus') :
    bus'.recorder? a = some (limit, (bytes ++ sentTo a stores).rtake limit) := by
  induction stores generalizing bus bytes with
  | nil =>
    cases hwrite
    rw [h, sentTo, List.filter_nil, List.map_nil, List.append_nil, rtake_of_recorder? h]
  | cons store stores ih =>
    obtain ⟨_, next, hfirst, hrest⟩ := Faulting.exists_of_bind_ok hwrite
    have hfirst : write store.1 store.2 bus = .ok () next := hfirst
    by_cases hport : store.1 = a
    · subst hport
      rw [ih (recorder?_write_self h hfirst) hrest, rtake_append_rtake, sentTo, sentTo,
        List.filter_cons_of_pos (by simp), List.map_cons, List.append_assoc, List.singleton_append]
    · have hnext : next.recorder? a = some (limit, bytes) := by
        rw [← h, ← recorder?_write_of_ne hport store.2 bus, hfirst]
        rfl
      rw [ih hnext hrest, sentTo, sentTo, List.filter_cons_of_neg (by simpa using hport)]

end Bus

/-! ## The past of a latch -/

section

open Faulting (finalState)

/-! ### Requests -/

/-- What a latch is asked to do. -/
inductive PortRequest where
  /-- To take a byte that a program sends to a port. -/
  | write (a : UInt32) (value : UInt8)
  /-- To show programs a byte at a port. -/
  | setInput (a : UInt32) (value : UInt8)
  /-- To empty all records. -/
  | clearOutput
deriving DecidableEq, Repr

namespace PortRequest

/-- The byte that is sent to a port by the request. -/
def sent? (a : UInt32) : PortRequest → Option UInt8
  | write b value => if b = a then some value else none
  | setInput _ _ | clearOutput => none

/-- The byte that is set as the input of a port by the request. -/
def input? (a : UInt32) : PortRequest → Option UInt8
  | setInput b value => if b = a then some value else none
  | write _ _ | clearOutput => none

/-- Whether the request is for a port, alone or among others. -/
def reaches (a : UInt32) : PortRequest → Bool
  | write b _ | setInput b _ => b = a
  | clearOutput => true

variable {a : UInt32} {requests : List PortRequest}

/-- The bytes that were sent to a port since the records were last emptied. -/
def sentSince (a : UInt32) (requests : List PortRequest) : List UInt8 :=
  (requests.rtakeWhile (· ≠ clearOutput)).filterMap (sent? a)

/-- The last input that was set for a port. There is one from the beginning. -/
def lastInput (a : UInt32) (requests : List PortRequest) : UInt8 :=
  (requests.filterMap (input? a)).getLast?.getD 0

theorem sentSince_concat_clearOutput (a : UInt32) (requests : List PortRequest) :
    sentSince a (requests ++ [clearOutput]) = [] := by
  rw [sentSince, List.rtakeWhile_concat_neg _ _ _ (by simp), List.filterMap_nil]

theorem sentSince_concat {request : PortRequest} (h : request ≠ clearOutput) :
    sentSince a (requests ++ [request]) = sentSince a requests ++ (request.sent? a).toList := by
  rw [sentSince, List.rtakeWhile_concat_pos _ _ _ (by simpa using h), List.filterMap_append,
    sentSince]
  rfl

theorem lastInput_concat (request : PortRequest) :
    lastInput a (requests ++ [request]) = (request.input? a).getD (lastInput a requests) := by
  rw [lastInput, List.filterMap_append, lastInput]
  cases hinput : request.input? a <;> simp [hinput]

end PortRequest

/-! ### One port -/

namespace Port

open PortRequest (sentSince lastInput)

variable (a : UInt32) (limit : ℕ)

def meet (port : Port) : PortRequest → Port
  | .write b value => if b = a then port.record limit value else port
  | .setInput b value => if b = a then { port with input := value } else port
  | .clearOutput => { port with written := #[] }

/-- What a new port at an address has become. -/
def reached (requests : List PortRequest) : Port := requests.foldl (meet a limit) {}

variable {a limit} {requests : List PortRequest}

theorem reached_concat (request : PortRequest) :
    reached a limit (requests ++ [request]) = (reached a limit requests).meet a limit request := by
  rw [reached, reached, List.foldl_append, List.foldl_cons, List.foldl_nil]

theorem meet_of_not_reaches (port : Port) {request : PortRequest}
    (h : request.reaches a = false) : port.meet a limit request = port := by
  cases request with
  | write b value => exact if_neg (of_decide_eq_false h)
  | setInput b value => exact if_neg (of_decide_eq_false h)
  | clearOutput => cases h

/-- Requests for other ports might as well not have been made. -/
theorem reached_filter (requests : List PortRequest) :
    reached a limit (requests.filter (·.reaches a)) = reached a limit requests := by
  rw [reached, List.foldl_filter, reached]
  congr 1
  funext port request
  by_cases h : request.reaches a = true
  · rw [if_pos h]
  · rw [if_neg h, meet_of_not_reaches port (Bool.eq_false_iff.mpr h)]

/-- Only an input changes what programs read. -/
theorem input_meet (port : Port) (request : PortRequest) :
    (port.meet a limit request).input = (request.input? a).getD port.input := by
  cases request with
  | write b value =>
    rw [meet]
    split <;> rfl
  | setInput b value =>
    rw [meet, PortRequest.input?]
    split <;> rfl
  | clearOutput => rfl

theorem input_reached (requests : List PortRequest) :
    (reached a limit requests).input = lastInput a requests := by
  induction requests using List.reverseRecOn with
  | nil => rfl
  | append_singleton requests request ih =>
    rw [reached_concat, input_meet, ih, PortRequest.lastInput_concat]

theorem recent_meet (port : Port) {request : PortRequest} (h : request ≠ .clearOutput) :
    (port.meet a limit request).recent limit
      = (port.recent limit ++ (request.sent? a).toList).rtake limit := by
  have hsame : port.recent limit = (port.recent limit ++ []).rtake limit := by
    rw [List.append_nil, recent_eq_rtake, rtake_rtake]
  cases request with
  | write b value =>
    rw [meet, PortRequest.sent?]
    split
    · exact port.recent_record limit value
    · exact hsame
  | setInput b value =>
    rw [meet]
    split <;> exact hsame
  | clearOutput => exact absurd rfl h

/-- What is shown of a record are the last of the bytes that were sent, up to the limit. -/
theorem recent_reached (requests : List PortRequest) :
    (reached a limit requests).recent limit = (sentSince a requests).rtake limit := by
  induction requests using List.reverseRecOn with
  | nil => rfl
  | append_singleton requests request ih =>
    rw [reached_concat]
    by_cases hclear : request = .clearOutput
    · rw [hclear, PortRequest.sentSince_concat_clearOutput]
      rfl
    · rw [recent_meet _ hclear, ih, rtake_append_rtake, PortRequest.sentSince_concat hclear]

/-- Whether or not a record has just been cut back, it is short. -/
theorem size_record_lt (port : Port) (limit : ℕ) (value : UInt8) :
    (port.record limit value).written.size < max (2 * limit) 1 := by
  rw [record]
  dsimp only
  split
  · rw [Array.size_extract]
    omega
  · omega

theorem size_meet_lt {port : Port} (h : port.written.size < max (2 * limit) 1)
    (request : PortRequest) :
    (port.meet a limit request).written.size < max (2 * limit) 1 := by
  cases request with
  | write b value =>
    rw [meet]
    split
    · exact port.size_record_lt limit value
    · exact h
  | setInput b value =>
    rw [meet]
    split <;> exact h
  | clearOutput => exact Nat.lt_of_lt_of_le Nat.zero_lt_one (Nat.le_max_right _ _)

theorem size_reached_lt (requests : List PortRequest) :
    (reached a limit requests).written.size < max (2 * limit) 1 := by
  induction requests using List.reverseRecOn with
  | nil => exact Nat.lt_of_lt_of_le Nat.zero_lt_one (Nat.le_max_right _ _)
  | append_singleton requests request ih =>
    rw [reached_concat]
    exact size_meet_lt ih request

end Port

/-! ### All ports of a latch -/

namespace PortLatch

open PortRequest (sentSince lastInput)

def port? (latch : PortLatch) (a : UInt32) : Option Port :=
  (latch.range.index? a).map latch.ports.get

/-- Does what a latch is asked to do, by the accesses that it serves as a device. -/
def meet : PortRequest → Faulting Device Unit
  | .write a value => Device.write a value
  | .setInput a value => Device.load a value
  | .clearOutput => Faulting.update fun
    | .store cells => .store cells
    | .latch ports => .latch ports.clearOutput

/-- What a latch has become after a sequence of requests, whether or not they were carried out. -/
def after (device : Device) (requests : List PortRequest) : Device :=
  requests.foldl (fun device request ↦ finalState (meet request device)) device

variable {latch : PortLatch} {a b : UInt32} {value : UInt8}

/-! #### What a request changes -/

def changed (latch : PortLatch) : PortRequest → PortLatch
  | .write a value => latch.put a value
  | .setInput a value => latch.setInput a value
  | .clearOutput => latch.clearOutput

theorem check_of_contains (h : latch.range.contains a = true) : latch.check a = .ok () := if_pos h

theorem check_of_not_contains (h : latch.range.contains a = false) :
    latch.check a = .error (.unmappedAddress a) := by
  rw [check, if_neg (Bool.eq_false_iff.mp h)]

theorem index?_of_not_contains (h : latch.range.contains a = false) :
    latch.range.index? a = none := by
  rw [← Option.isNone_iff_eq_none, ← Option.not_isSome, AddressRange.isSome_index?, h]
  rfl

theorem modify_of_not_contains (change : Port → Port) (h : latch.range.contains a = false) :
    latch.modify a change = latch := by
  rw [modify, index?_of_not_contains h]

theorem write_of_not_contains (value : UInt8) (h : latch.range.contains a = false) :
    Device.write a value (.latch latch) = .error (.unmappedAddress a) (.latch latch) :=
  Faulting.guarded_of_error _ (check_of_not_contains h)

theorem load_of_not_contains (value : UInt8) (h : latch.range.contains a = false) :
    Device.load a value (.latch latch) = .error (.unmappedAddress a) (.latch latch) :=
  Faulting.guarded_of_error _ (check_of_not_contains h)

theorem write_of_contains (value : UInt8) (h : latch.range.contains a = true) :
    Device.write a value (.latch latch) = .ok () (.latch (latch.put a value)) :=
  Faulting.guarded_of_ok _ (check_of_contains h)

theorem load_of_contains (value : UInt8) (h : latch.range.contains a = true) :
    Device.load a value (.latch latch) = .ok () (.latch (latch.setInput a value)) :=
  Faulting.guarded_of_ok _ (check_of_contains h)

theorem finalState_meet (latch : PortLatch) (request : PortRequest) :
    finalState (meet request (.latch latch)) = .latch (latch.changed request) := by
  cases request with
  | write a value =>
    rw [meet, changed]
    by_cases h : latch.range.contains a = true
    · rw [write_of_contains value h, finalState]
    · rw [Bool.not_eq_true] at h
      rw [write_of_not_contains value h, finalState, put, modify_of_not_contains _ h]
  | setInput a value =>
    rw [meet, changed]
    by_cases h : latch.range.contains a = true
    · rw [load_of_contains value h, finalState]
    · rw [Bool.not_eq_true] at h
      rw [load_of_not_contains value h, finalState, setInput, modify_of_not_contains _ h]
  | clearOutput => rfl

/-! #### What a port has become -/

theorem port?_modify (latch : PortLatch) (a b : UInt32) (change : Port → Port) :
    (latch.modify b change).port? a
      = (latch.port? a).map fun port ↦ if b = a then change port else port := by
  by_cases h : latch.range.contains b = true
  · obtain ⟨i, hi⟩ := Option.isSome_iff_exists.mp ((latch.range.isSome_index? b).trans h)
    rw [modify, hi, port?, port?, Option.map_map]
    refine Option.map_congr fun j hj ↦ ?_
    have hplace : i = j ↔ b = a := by
      constructor
      · rintro rfl
        exact AddressRange.index?_inj hi hj
      · rintro rfl
        exact Option.some.inj (hi.symm.trans hj)
    rw [Device.get_modify_ports]
    simp only [hplace, Function.comp_apply]
  · rw [Bool.not_eq_true] at h
    rw [modify_of_not_contains change h]
    by_cases hab : b = a
    · rw [port?, ← hab, index?_of_not_contains h]
      rfl
    · simp only [if_neg hab, Option.map_id']

theorem port?_changed (latch : PortLatch) (a : UInt32) (request : PortRequest) :
    (latch.changed request).port? a
      = (latch.port? a).map fun port ↦ port.meet a latch.captureLimit request := by
  cases request with
  | write b value => exact latch.port?_modify a b _
  | setInput b value => exact latch.port?_modify a b _
  | clearOutput =>
    rw [changed, clearOutput, port?, port?, Option.map_map]
    refine Option.map_congr fun i _ ↦ ?_
    exact Vector.getElem_map _ i.isLt

theorem blank_changed (latch : PortLatch) (request : PortRequest) :
    (Device.latch (latch.changed request)).blank = (Device.latch latch).blank := by
  cases request with
  | write a value => exact Device.blank_modify latch a _
  | setInput a value => exact Device.blank_modify latch a _
  | clearOutput => rfl

theorem after_latch (latch : PortLatch) (requests : List PortRequest) :
    after (.latch latch) requests = .latch (requests.foldl changed latch) := by
  induction requests generalizing latch with
  | nil => rfl
  | cons request requests ih =>
    rw [after, List.foldl_cons, finalState_meet, ← after, ih, List.foldl_cons]

/-- What a latch is, apart from what its ports keep, stays. -/
theorem blank_foldl_changed (latch : PortLatch) (requests : List PortRequest) :
    (Device.latch (requests.foldl changed latch)).blank = (Device.latch latch).blank := by
  induction requests generalizing latch with
  | nil => rfl
  | cons request requests ih =>
    rw [List.foldl_cons, ih, blank_changed]

theorem range_foldl_changed (latch : PortLatch) (requests : List PortRequest) :
    (requests.foldl changed latch).range = latch.range :=
  Device.eq_of_blank Device.range Device.range_blank (latch.blank_foldl_changed requests)

theorem captureLimit_foldl_changed (latch : PortLatch) (requests : List PortRequest) :
    (requests.foldl changed latch).captureLimit = latch.captureLimit :=
  Device.eq_of_blank Device.captureLimit Device.captureLimit_blank
    (latch.blank_foldl_changed requests)

theorem port?_foldl_changed (latch : PortLatch) (a : UInt32) (requests : List PortRequest) :
    (requests.foldl changed latch).port? a = (latch.port? a).map fun port ↦
      requests.foldl (Port.meet a latch.captureLimit) port := by
  induction requests generalizing latch with
  | nil => exact Option.map_id'.symm
  | cons request requests ih =>
    have hlimit : (latch.changed request).captureLimit = latch.captureLimit :=
      latch.captureLimit_foldl_changed [request]
    rw [List.foldl_cons, ih, port?_changed, hlimit, Option.map_map]
    rfl

/-! #### New latches -/

/-- A latch whose ports have not been used. -/
def new (range : AddressRange) (limit : ℕ) : PortLatch := { range, captureLimit := limit }

def reached (range : AddressRange) (limit : ℕ) (requests : List PortRequest) : PortLatch :=
  requests.foldl changed (new range limit)

variable {range : AddressRange} {limit : ℕ}

theorem port?_reached (h : range.contains a = true) (requests : List PortRequest) :
    (reached range limit requests).port? a = some (Port.reached a limit requests) := by
  have hnew : (new range limit).port? a = some {} := by
    obtain ⟨i, hi⟩ := Option.isSome_iff_exists.mp ((range.isSome_index? a).trans h)
    have hi : (new range limit).range.index? a = some i := hi
    rw [port?, hi]
    exact congrArg some (Vector.getElem_replicate i.isLt)
  rw [reached, port?_foldl_changed, hnew]
  rfl

theorem read_of_port? {port : Port} (h : latch.port? a = some port) :
    latch.read a = .ok port.input := by
  obtain ⟨i, hi, rfl⟩ := Option.map_eq_some_iff.mp h
  rw [read, hi]
  rfl

theorem captured?_of_port? {port : Port} (h : latch.port? a = some port) :
    latch.captured? a = some (port.recent latch.captureLimit) := by
  obtain ⟨i, hi, rfl⟩ := Option.map_eq_some_iff.mp h
  rw [captured?, hi]
  rfl

/-- What a latch with a port at an address shows there after a sequence of requests. -/
structure Tells (latch : PortLatch) (a : UInt32) (requests : List PortRequest) : Prop where
  /-- The record shows the last bytes of those that were sent since it was emptied. -/
  written_eq : latch.written a = (sentSince a requests).rtake latch.captureLimit
  captured?_eq : latch.captured? a = some (latch.written a)
  /-- Programs read the last input. -/
  read_eq : latch.read a = .ok (lastInput a requests)
  /-- The room for the record is bounded, however many bytes have been sent. -/
  size_lt : ∃ port, latch.port? a = some port ∧
    port.written.size < max (2 * latch.captureLimit) 1
  /-- Any byte is taken. -/
  takes : ∀ value, meet (.write a value) (.latch latch) = .ok () (.latch (latch.put a value)) ∧
    meet (.setInput a value) (.latch latch) = .ok () (.latch (latch.setInput a value))

/-- A latch without a port at an address refuses everything there and is left as it was. -/
structure Lacks (latch : PortLatch) (a : UInt32) : Prop where
  write_eq : ∀ value,
    meet (.write a value) (.latch latch) = .error (.unmappedAddress a) (.latch latch)
  setInput_eq : ∀ value,
    meet (.setInput a value) (.latch latch) = .error (.unmappedAddress a) (.latch latch)
  read_eq : latch.read a = .error (.unmappedAddress a)
  written_eq : latch.written a = []
  captured?_eq : latch.captured? a = none

theorem tells_reached (h : range.contains a = true) (requests : List PortRequest) :
    (reached range limit requests).Tells a requests := by
  have hport : (reached range limit requests).port? a = some (Port.reached a limit requests) :=
    port?_reached h requests
  have hlimit : (reached range limit requests).captureLimit = limit :=
    captureLimit_foldl_changed _ requests
  have hcontains : (reached range limit requests).range.contains a = true := by
    rwa [reached, range_foldl_changed]
  have hcaptured := captured?_of_port? hport
  have hwritten :
      (reached range limit requests).written a = (sentSince a requests).rtake limit := by
    rw [written, hcaptured, Option.getD_some, hlimit, Port.recent_reached]
  constructor
  · rw [hwritten, hlimit]
  · rw [written, hcaptured, Option.getD_some]
  · rw [read_of_port? hport, Port.input_reached]
  · rw [hlimit]
    exact ⟨_, hport, Port.size_reached_lt requests⟩
  · intro value
    exact ⟨write_of_contains value hcontains, load_of_contains value hcontains⟩

theorem lacks_of_not_contains (h : latch.range.contains a = false) : latch.Lacks a := by
  have hindex := index?_of_not_contains h
  have hcaptured : latch.captured? a = none := by rw [captured?, hindex, Option.map_none]
  constructor
  · intro value
    exact write_of_not_contains value h
  · intro value
    exact load_of_not_contains value h
  · rw [read, hindex]
  · rw [written, hcaptured, Option.getD_none]
  · exact hcaptured

/-- **A latch tells its past.** Each port shows what was sent to it and what was set for it, in
bounded room, as if there were no other port. -/
theorem reached_tells_requests (range : AddressRange) (limit : ℕ) (requests : List PortRequest) :
    let latch := reached range limit requests
    after (.latch (new range limit)) requests = .latch latch ∧
      latch.range = range ∧ latch.captureLimit = limit ∧
      ∀ a, (range.contains a = true → latch.Tells a requests) ∧
        (range.contains a = false → latch.Lacks a) ∧
        (reached range limit (requests.filter (·.reaches a))).port? a = latch.port? a := by
  intro latch
  have hrange : latch.range = range := range_foldl_changed _ requests
  refine ⟨after_latch _ requests, hrange, captureLimit_foldl_changed _ requests, ?_⟩
  intro a
  refine ⟨?_, ?_, ?_⟩
  · intro h
    exact tells_reached h requests
  · intro h
    exact lacks_of_not_contains (hrange.symm ▸ h)
  · by_cases h : range.contains a = true
    · rw [port?_reached h, port?_reached h, Port.reached_filter]
    · have hnone : ∀ requests, (reached range limit requests).port? a = none := by
        intro requests
        rw [Bool.not_eq_true] at h
        rw [port?, index?_of_not_contains (by rwa [reached, range_foldl_changed]), Option.map_none]
      rw [hnone, hnone]

end PortLatch

end

end CalcWatch
