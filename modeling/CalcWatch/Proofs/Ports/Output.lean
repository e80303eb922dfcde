import CalcWatch.Proofs.Invariants.Obtainable
import CalcWatch.Proofs.Ports.Record
import CalcWatch.Proofs.Transfers

/-!
# What a program sends

Five kinds of instruction send bytes to the two ports. A stream that fails has sent the bytes that
it could fetch; everything else sends all of its bytes, since a port takes any byte. So the record
of a port is what the instructions sent to it in the order in which they were performed, cut to the
limit of the port, whatever the host raises, steps and sets as input on the way.

## The construction

What a step is about to send is known beforehand, with a fault in the place of each byte that cannot
be fetched: `outputsAhead`. The bytes in front of the first such place are the `emission` of the
machine. Along a run they are collected step after step, `sentThrough`, each time from the machine
that the run has reached.

## The invariant

If both ports take any byte, then a step leaves the ports as its emission does, whether it completed
or failed. This is the only place where instructions are told apart, and only streams need thought:
a fault of theirs has to be one of fetching. The induction on the run carries the pair of the limit
and of what is shown of the record. A step appends its emission and cuts, the inputs that a host
sets leave the pair alone, and cutting once more at the end makes up for all of the cuts before, by
`rtake_append_rtake`.
-/

namespace CalcWatch

namespace Bus

/-- The bytes at hand, up to the first that cannot be fetched. -/
def available : List Output → List (UInt32 × UInt8)
  | (a, .ok byte) :: rest => (a, byte) :: available rest
  | _ => []

theorem available_ready (stores : List (UInt32 × UInt8)) : available (ready stores) = stores := by
  induction stores with
  | nil => rfl
  | cons store stores ih => exact congrArg (store :: ·) ih

theorem available_append_error (stores : List (UInt32 × UInt8)) (a : UInt32) (f : Fault)
    (rest : List Output) : available (ready stores ++ (a, .error f) :: rest) = stores := by
  induction stores with
  | nil => rfl
  | cons store stores ih => exact congrArg (store :: ·) ih

end Bus

namespace Machine

open Bus (available ready writeAll sentTo)

variable {m m' : Machine} {f : Fault}

/-! ## What one step sends -/

/-- Both ports of the program take any byte. -/
def Listens (m : Machine) : Prop := m.ports.Accepts addressPort ∧ m.ports.Accepts dataPort

def emission (m : Machine) : List (UInt32 × UInt8) := available m.outputsAhead

theorem writeAll_toDataPort (hdata : m.ports.Accepts dataPort) (bytes : List UInt8) :
    ∃ ports, writeAll (toDataPort bytes) m.ports = .ok () ports := by
  refine Bus.exists_writeAll_ok fun store hmem ↦ ?_
  obtain ⟨byte, -, rfl⟩ := List.mem_map.mp hmem
  exact hdata

/-- A stream to a port that takes any byte stops at a byte that cannot be fetched. -/
theorem streamOutputs_of_stream_error (hdata : m.ports.Accepts dataPort) {count : ℕ}
    (h : stream count m = .error f m') : ∃ sent rest,
      m.streamOutputs count = ready sent ++ (dataPort, .error f) :: rest ∧
      writeAll sent m.ports = .ok () m'.ports := by
  obtain ⟨sent, ⟨port, fetched⟩, rest, ports, houtputs, hsent, hrefused, rfl⟩ :=
    exists_of_stream_error h
  have hport : dataPort = port := by
    have hmem : (port, fetched) ∈ m.streamOutputs count := by
      rw [houtputs]
      exact List.mem_append_right _ List.mem_cons_self
    obtain ⟨_, -, heq⟩ := List.mem_map.mp hmem
    exact congrArg Prod.fst heq
  subst hport
  -- the port would have taken the byte, so it was the fetch that failed
  have hfetch : fetched = .error f := by
    refine hrefused.resolve_right ?_
    rintro ⟨byte, -, hwrite⟩
    have haccepts := hdata.of_blank (Bus.blank_of_writeAll hsent)
    obtain ⟨_, htaken⟩ := haccepts.exists_write_ok byte
    rw [htaken] at hwrite
    cases hwrite
  subst hfetch
  exact ⟨sent, rest, houtputs, hsent⟩

theorem ports_of_silent_error {op : Operation} (hsilent : op.outputs m = [])
    (h : perform op m = .error f m') : m'.ports = m.ports := by
  obtain ⟨_, sent, hstopped⟩ := perform_error h
  have hports := hstopped.ports
  have hsent : sent = [] := by
    refine hstopped.sent_part.resolve_right ?_
    rintro ⟨refused, rest, houtputs⟩
    rw [hsilent] at houtputs
    exact List.append_ne_nil_of_right_ne_nil _ (List.cons_ne_nil _ _) houtputs.symm
  rw [hsent] at hports
  injection hports with _ hsame
  exact hsame.symm

/-- An operation that failed has sent the bytes that were at hand. -/
theorem writeAll_of_perform_error (hlistens : m.Listens) {op : Operation}
    (h : perform op m = .error f m') :
    writeAll (available (op.outputs m)) m.ports = .ok () m'.ports := by
  have hquiet : op.outputs m = [] →
      writeAll (available (op.outputs m)) m.ports = .ok () m'.ports := by
    intro hsilent
    rw [hsilent, ports_of_silent_error hsilent h]
    rfl
  cases op with
  | send payload =>
    have hsend := Faulting.error_of_bind_error (fun _ ↦ safe_proceed _) h
    obtain ⟨_, htaken⟩ := writeAll_toDataPort hlistens.2 (m.payloadBytes payload)
    rw [send_apply, onPorts_apply, htaken] at hsend
    cases hsend
  | pointDisplay a =>
    have hsend := Faulting.error_of_bind_error (fun _ ↦ safe_proceed _) h
    obtain ⟨_, htaken⟩ := hlistens.1.exists_write_ok a.toUInt8
    rw [pointDisplay_apply, onPorts_apply, htaken] at hsend
    cases hsend
  | call target =>
    cases hroutine : Routine.ofTarget target with
    | stored | clearBank => exact hquiet (by simp only [Operation.outputs, hroutine])
    | stream count =>
      change call target m.following m = _ at h
      rw [call, hroutine] at h
      have hstream := Faulting.error_of_bind_error (fun _ ↦ Faulting.safe_pure _) h
      obtain ⟨sent, rest, houtputs, hsent⟩ := streamOutputs_of_stream_error hlistens.2 hstream
      simp only [Operation.outputs, hroutine]
      rwa [houtputs, Bus.available_append_error]
  | _ => exact hquiet rfl

/-- A step sends what is at hand, and nothing else. -/
theorem writeAll_emission (hlistens : m.Listens) :
    writeAll m.emission m.ports = .ok () m.stepped.ports := by
  rw [emission]
  cases hstep : step m with
  | ok length m' =>
    rw [stepped_of_ok hstep]
    obtain ⟨-, ⟨source, hdue, henter⟩ | ⟨inst, completion, t, hdue, hinst, hperform, rfl⟩⟩ :=
      step_ok_cases hstep
    · obtain ⟨memory, -, rfl⟩ := exists_of_enterService_ok henter
      rw [outputsAhead, hdue]
      rfl
    · obtain ⟨sent, houtputs, hports⟩ := (perform_ok hperform).ports
      rwa [outputsAhead_of_performs ⟨hdue, hinst⟩, houtputs, Bus.available_ready]
  | error f m' =>
    rw [stepped_of_error hstep]
    rcases step_error_cases hstep with ⟨source, hdue, henter⟩ | ⟨hdue, hfault, rfl⟩ |
      ⟨inst, hdue, hinst, hperform⟩
    · obtain ⟨_, _, _, memory, -, -, -, rfl⟩ := exists_of_enterService_error henter
      rw [outputsAhead, hdue]
      rfl
    · rw [outputsAhead, hdue, hfault]
      rfl
    · rw [outputsAhead_of_performs ⟨hdue, hinst⟩]
      exact writeAll_of_perform_error hlistens hperform

end Machine

/-! ## What a run sends -/

/-- What a host does that also sets inputs. -/
inductive HostEvent where
  /-- It raises an interrupt or asks for a step. -/
  | stimulus (stimulus : Stimulus)
  /-- It sets the inputs of ports from `base` upwards. -/
  | input (base : UInt32) (bytes : List UInt8)
deriving DecidableEq, Repr

namespace Machine

open Bus (sentTo)
open Faulting (finalState)

variable {m : Machine}

def meet (m : Machine) : HostEvent → Machine
  | .stimulus stimulus => m.react stimulus
  | .input base bytes => { m with ports := finalState (Bus.load base bytes m.ports) }

def driven (m : Machine) (events : List HostEvent) : Machine := events.foldl meet m

/-- The bytes that an event lets the program send to a port. -/
def sentOn (m : Machine) (port : UInt32) : HostEvent → List UInt8
  | .stimulus .step => sentTo port m.emission
  | .stimulus (.raise _) | .input _ _ => []

/-- The bytes that the program sends to a port in a run. -/
def sentThrough (port : UInt32) : Machine → List HostEvent → List UInt8
  | _, [] => []
  | m, event :: events => m.sentOn port event ++ sentThrough port (m.meet event) events

variable {limit : ℕ} {bytes : List UInt8} {port : UInt32}

theorem recorder?_meet (hlistens : m.Listens)
    (h : m.ports.recorder? port = some (limit, bytes)) (event : HostEvent) :
    (m.meet event).ports.recorder? port
      = some (limit, (bytes ++ m.sentOn port event).rtake limit) := by
  have hkept : (bytes ++ []).rtake limit = bytes := by
    rw [List.append_nil, Bus.rtake_of_recorder? h]
  match event with
  | .stimulus .step => exact Bus.recorder?_writeAll h (writeAll_emission hlistens)
  | .stimulus (.raise source) => rw [sentOn, hkept, ← h]; rfl
  | .input base inputs =>
    rw [sentOn, hkept, ← h]
    exact Bus.recorder?_load base inputs m.ports port

/-- What a port has recorded after a run is settled by what was sent to it. -/
theorem recorder?_driven {limit' : ℕ} {bytes' : List UInt8}
    (haddress : m.ports.recorder? addressPort = some (limit, bytes))
    (hdata : m.ports.recorder? dataPort = some (limit', bytes')) (events : List HostEvent) :
    (m.driven events).ports.recorder? addressPort
        = some (limit, (bytes ++ sentThrough addressPort m events).rtake limit) ∧
      (m.driven events).ports.recorder? dataPort
        = some (limit', (bytes' ++ sentThrough dataPort m events).rtake limit') := by
  induction events generalizing m bytes bytes' with
  | nil =>
    rw [sentThrough, sentThrough, List.append_nil, List.append_nil, Bus.rtake_of_recorder? haddress,
      Bus.rtake_of_recorder? hdata]
    exact ⟨haddress, hdata⟩
  | cons event events ih =>
    have hlistens : m.Listens :=
      ⟨Bus.accepts_of_recorder? haddress, Bus.accepts_of_recorder? hdata⟩
    have hrest := ih (recorder?_meet hlistens haddress event) (recorder?_meet hlistens hdata event)
    rwa [rtake_append_rtake, rtake_append_rtake, List.append_assoc, List.append_assoc] at hrest

theorem Obtainable.driven (h : m.Obtainable) (events : List HostEvent) :
    (m.driven events).Obtainable := by
  induction events generalizing m with
  | nil => exact h
  | cons event events ih =>
    refine ih ?_
    match event with
    | .stimulus (.raise source) => exact h.raise source
    | .stimulus .step => exact h.step
    | .input base bytes => exact h.ports (.load base bytes)

/-- Registers hold digits, so two of them fit in a byte. -/
theorem sentBytes_of_stl (h : m.registers.Nibbles) {inst : Instruction} (hform : inst.form = .stl) :
    inst.sentBytes m = [(dataPort, .ok (m.reg inst.d * 16 + m.reg inst.s))] := by
  rw [Instruction.sentBytes, hform]
  exact congrArg (fun byte ↦ [(dataPort, Except.ok byte)])
    (digits_eq_add (h.get_le _ inst.d) (h.get_le _ inst.s))

/-- **The record of a port is what the program sent there**, cut to the limit of the port. -/
theorem captured?_driven {address data : PortLatch}
    (haddress : m.ports.serving? addressPort = some (.latch address))
    (hdata : m.ports.serving? dataPort = some (.latch data)) (events : List HostEvent) :
    (∃ bytes, m.ports.captured? addressPort = some bytes ∧
      (m.driven events).ports.captured? addressPort
        = some ((bytes ++ sentThrough addressPort m events).rtake address.captureLimit)) ∧
    (∃ bytes, m.ports.captured? dataPort = some bytes ∧
      (m.driven events).ports.captured? dataPort
        = some ((bytes ++ sentThrough dataPort m events).rtake data.captureLimit)) ∧
    (m.Obtainable → ∀ inst : Instruction, inst.form = .stl →
      inst.sentBytes (m.driven events) = [(dataPort,
        .ok ((m.driven events).reg inst.d * 16 + (m.driven events).reg inst.s))]) := by
  obtain ⟨bytes, haddress⟩ := Bus.exists_recorder?_of_serving haddress
  obtain ⟨bytes', hdata⟩ := Bus.exists_recorder?_of_serving hdata
  obtain ⟨haddress', hdata'⟩ := recorder?_driven haddress hdata events
  refine ⟨⟨bytes, Bus.captured?_of_recorder? haddress, Bus.captured?_of_recorder? haddress'⟩,
    ⟨bytes', Bus.captured?_of_recorder? hdata, Bus.captured?_of_recorder? hdata'⟩,
    fun hm inst hform ↦ ?_⟩
  exact sentBytes_of_stl (hm.driven events).sound.registers hform

/-- A machine with four-byte records. Its program sends a byte, a display address, the window from
`R0` to `R2` and the pair of `R1` and `R0`; last it streams three bytes, but only two of them are in
memory. -/
private def sending : Machine :=
  let image : List UInt8 := [0xF0, 0x12, 0xED, 0x45, 0xE0, 0x02, 0xE4, 0x20, 0xE8, 0x0C, 0xAB, 0xCD,
    0x9A, 0xBC]
  (((finalState (loadImage 0x1800 image {
    memory := ⟨"memory", [.store { range := .between 0x1800 0x180E }]⟩
    ports := ⟨"io", [.latch { range := .between 0 2, captureLimit := 4 }]⟩ })).setReg (.ofByte 0)
      1).setReg (.ofByte 1) 2).setReg (.ofByte 2) 3

/-- A run of the program. The interrupt is not served, since there is no stack, and the stream is
tried once more. -/
private def sendingRun : List HostEvent :=
  [.stimulus .step, .input dataPort [0x77], .stimulus .step, .stimulus .step,
    .stimulus (.raise .setButton), .stimulus .step, .stimulus .step, .stimulus .step,
    .stimulus .step, .stimulus .step]

private theorem obtainable_sending : sending.Obtainable := by
  have hmemory : Bus.Built ⟨"memory", [.store { range := .between 0x1800 0x180E }]⟩ :=
    List.forall_mem_singleton.mpr (.bytes _ true true .little)
  have hports : Bus.Built ⟨"io", [.latch { range := .between 0 2, captureLimit := 4 }]⟩ :=
    List.forall_mem_singleton.mpr (.ports _ 4)
  have hempty := Obtainable.ofBuses hmemory hports
  exact (((hempty.loadImage 0x1800 _).setReg 0 1).setReg 1 2).setReg 2 3

theorem captured?_driven_sending :
    sending.Obtainable ∧
      sentThrough addressPort sending sendingRun = [0x45] ∧
      sentThrough dataPort sending sendingRun = [0x12, 0x32, 0x10, 0x21, 0x9A, 0xBC] ∧
      (sending.driven sendingRun).ports.captured? addressPort = some [0x45] ∧
      (sending.driven sendingRun).ports.captured? dataPort = some [0x10, 0x21, 0x9A, 0xBC] ∧
      (Instruction.mk 0xE420 .stl).sentBytes (sending.driven sendingRun)
        = [(dataPort, .ok (2 * 16 + 1))] := by
  obtain ⟨⟨bytes, hbytes, haddress⟩, ⟨bytes', hbytes', hdata⟩, hpair⟩ :=
    captured?_driven (m := sending) rfl rfl sendingRun
  have hnone : sending.ports.captured? addressPort = some [] := rfl
  have hnone' : sending.ports.captured? dataPort = some [] := rfl
  rw [hnone] at hbytes
  rw [hnone'] at hbytes'
  cases hbytes
  cases hbytes'
  exact ⟨obtainable_sending, rfl, rfl, haddress, hdata, hpair obtainable_sending ⟨0xE420, .stl⟩ rfl⟩

end Machine

end CalcWatch
