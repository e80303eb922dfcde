import CalcWatch.Proofs.Execution.Accesses

/-!
# The effects of an operation

Every operation is told in advance what it may change, and it is shown once, with one case for each
operation, that it does just that. All statements about steps, frames, faults and outputs are drawn
from these two results and do not look at an operation again.

## What an operation is about to do

What an operation may change is told by functions of the operation and of the machine it starts
from: the cells it writes, the bytes it stores and sends, the flags it sets, and what it does to the
control registers and to the interrupt controller. A completed operation has done all of this. An
operation that failed has stored or sent a part of its bytes; nothing of the rest has happened but
the few changes that come before the first access.

## What an operation has done

Both results go through the operations one by one: an operation that completes is `Completed`, and
one that fails is `Stopped`. Whatever goes on after the last access of an operation never fails, so
a fault is always the fault of an access, and the specifications of the accesses say which.
-/

namespace CalcWatch

/-! ## What an operation is about to do -/

section

open Bus (Output ready writeAll)
open Machine (wordStores)

/-! ### Flag updates -/

def FlagUpdate.touches : FlagUpdate → Flag → Bool
  | keep, _ => false
  | carry _, flag => flag == .carry
  | carryZero _ _, _ => true

namespace FlagUpdate

variable (update : FlagUpdate) (control : Control)

theorem apply_eq :
    update.apply control = { control with flags := (update.apply control).flags } := by
  cases update <;> rfl

/-- No update reaches the upper six bits. -/
theorem flags_apply_and : (update.apply control).flags &&& 0xFC = control.flags &&& 0xFC := by
  cases update with
  | keep => rfl
  | carry c => exact control.flags_setFlag_and c rfl
  | carryZero c z =>
    rw [apply, Control.flags_setFlag_and _ z rfl, Control.flags_setFlag_and _ c rfl]

theorem flag_apply {flag : Flag} (h : update.touches flag = false) :
    (update.apply control).flag flag = control.flag flag := by
  cases update with
  | keep => rfl
  | carry c =>
    refine control.flag_setFlag_of_ne c ?_
    rintro rfl
    exact Bool.noConfusion h
  | carryZero c z => exact Bool.noConfusion h

end FlagUpdate

/-! ### Routines -/

namespace Routine

def spAfter (m : Machine) : Routine → UInt16
  | stored => m.control.sp - 2
  | _ => m.control.sp

/-- The transfer address after a call that has sent some bytes. -/
def saAfter (m : Machine) (sent : ℕ) : Routine → UInt16
  | stream _ => m.control.sa + UInt16.ofNat sent
  | _ => m.control.sa

def count : Routine → ℕ
  | stream count => count
  | _ => 0

end Routine

/-! ### What an operation is about to do -/

namespace Operation

/-- The cells that are written. -/
def cells (m : Machine) : Operation → List Cell
  | combine _ step => [(m.bank .current).cell step.target]
  | ripple _ _ steps => steps.map fun step ↦ (m.bank .current).cell step.target
  | bitwise _ r _ => [(m.bank .current).cell r]
  | assign dst _ steps => steps.map fun step ↦ (m.bank dst).cell step.target
  | call target =>
    match Routine.ofTarget target with
    | .clearBank => (List.finRange 32).map ((m.bank .current).slot, ·)
    | _ => []
  | load w _ => w.registers.map (m.bank .current).cell
  | receive high low => [(m.bank .current).cell high, (m.bank .current).cell low]
  | _ => []

def touches : Operation → Flag → Bool
  | combine op _, flag => flag == .carry || op.subtracts
  | ripple _ _ _, flag => flag == .carry
  | compare _ _, _ | comparePairs _, _ => true
  | _, _ => false

def stores (m : Machine) : Operation → List (UInt32 × UInt8)
  | store w _ => m.windowStores w
  | call target =>
    match Routine.ofTarget target with
    | .stored => wordStores (m.control.sp - 2) m.following
    | _ => []
  | _ => []

def outputs (m : Machine) : Operation → List Output
  | send payload => ready (Machine.toDataPort (m.payloadBytes payload))
  | pointDisplay a => [(addressPort, .ok a.toUInt8)]
  | call target =>
    match Routine.ofTarget target with
    | .stream count => m.streamOutputs count
    | _ => []
  | _ => []

/-- The interrupt controller, changed before anything can fail. -/
def interrupts (m : Machine) : Operation → InterruptController
  | halt => m.interrupts.finish.2
  | _ => m.interrupts

/-- The control registers of a completed operation, but for flags and program counter. -/
def control (m : Machine) : Operation → Control
  | selectBank role bank => (m.setBank role bank).control
  | call target =>
    { m.control with
      sp := (Routine.ofTarget target).spAfter m
      sa := (Routine.ofTarget target).saAfter m (Routine.ofTarget target).count }
  | ret => { m.control with sp := m.control.sp + 2 }
  | halt =>
    { m.control with sp := if m.interrupts.servicing then m.control.sp + 2 else m.control.sp }
  | store w advance | load w advance =>
    { m.control with
      sa := if advance then m.control.sa + UInt16.ofNat w.byteLength else m.control.sa }
  | pointMemory a => { m.control with sa := a }
  | pointDisplay a => { m.control with la := a }
  | _ => m.control

/-- The control registers of an operation that failed after some bytes were sent. -/
def controlAfterFault (m : Machine) (sent : ℕ) : Operation → Control
  | call target =>
    { m.control with
      sp := (Routine.ofTarget target).spAfter m
      sa := (Routine.ofTarget target).saAfter m sent }
  | pointDisplay a => { m.control with la := a }
  | _ => m.control

theorem control_call (m : Machine) (target : UInt16) :
    (call target).control m = { m.control with
      sp := (Routine.ofTarget target).spAfter m
      sa := (Routine.ofTarget target).saAfter m (Routine.ofTarget target).count } := rfl

theorem control_halt (m : Machine) : halt.control m = { m.control with
    sp := if m.interrupts.servicing then m.control.sp + 2 else m.control.sp } := rfl

theorem controlAfterFault_call (m : Machine) (sent : ℕ) (target : UInt16) :
    (call target).controlAfterFault m sent = { m.control with
      sp := (Routine.ofTarget target).spAfter m
      sa := (Routine.ofTarget target).saAfter m sent } := rfl

theorem flags_control (op : Operation) (m : Machine) : (op.control m).flags = m.control.flags := by
  cases op with
  | selectBank role bank => cases role <;> rfl
  | _ => rfl

/-- Of the control registers only addresses change before a fault. -/
theorem controlAfterFault_eq (op : Operation) (m : Machine) (sent : ℕ) :
    op.controlAfterFault m sent = { m.control with
      sp := (op.controlAfterFault m sent).sp
      sa := (op.controlAfterFault m sent).sa
      la := (op.controlAfterFault m sent).la } := by
  cases op <;> rfl

/-- What a completed operation has done. -/
structure Completed (op : Operation) (m : Machine) (flags : FlagUpdate) (m' : Machine) : Prop where
  /-- Nothing but the cells of the operation was written. -/
  registers : m.registers.AgreeOff (op.cells m) m'.registers
  /-- All bytes were stored. -/
  memory : writeAll (op.stores m) m.memory = .ok () m'.memory
  /-- All bytes were at hand, and were sent. -/
  ports : ∃ sent, op.outputs m = ready sent ∧ writeAll sent m.ports = .ok () m'.ports
  /-- Only the flags of the operation are to be set. -/
  flags_touches : ∀ flag, flags.touches flag = true → op.touches flag = true
  /-- The rest of the machine. -/
  eq : m' = { m with
    registers := m'.registers, control := op.control m, interrupts := op.interrupts m,
    memory := m'.memory, ports := m'.ports }

/-- What an operation has done that failed after it had stored and sent some bytes. -/
structure Stopped (op : Operation) (m : Machine) (stored sent : List (UInt32 × UInt8))
    (m' : Machine) : Prop where
  /-- At least one byte was not stored, or none was to be. -/
  stored_part : stored = [] ∨ ∃ refused rest, op.stores m = stored ++ refused :: rest
  /-- The stored bytes are in memory. -/
  memory : writeAll stored m.memory = .ok () m'.memory
  /-- At least one byte was not sent, or none was to be. -/
  sent_part : sent = [] ∨ ∃ refused rest, op.outputs m = ready sent ++ refused :: rest
  /-- The sent bytes are in the ports. -/
  ports : writeAll sent m.ports = .ok () m'.ports
  /-- The rest of the machine. -/
  eq : m' = { m with
    control := op.controlAfterFault m sent.length, interrupts := op.interrupts m,
    memory := m'.memory, ports := m'.ports }

variable {op : Operation} {m : Machine}

theorem Completed.of_registers {flags : FlagUpdate} {registers : RegisterFile}
    (hstores : op.stores m = []) (houtputs : op.outputs m = [])
    (hcontrol : op.control m = m.control) (hinterrupts : op.interrupts m = m.interrupts)
    (hregisters : m.registers.AgreeOff (op.cells m) registers)
    (hflags : ∀ flag, flags.touches flag = true → op.touches flag = true) :
    op.Completed m flags { m with registers } where
  registers := hregisters
  memory := by rw [hstores]; rfl
  ports := ⟨[], houtputs, rfl⟩
  flags_touches := hflags
  eq := by rw [hcontrol, hinterrupts]

theorem Stopped.of_unchanged (hcontrol : op.controlAfterFault m 0 = m.control)
    (hinterrupts : op.interrupts m = m.interrupts) : op.Stopped m [] [] m where
  stored_part := .inl rfl
  memory := rfl
  sent_part := .inl rfl
  ports := rfl
  eq := by rw [List.length_nil, hcontrol, hinterrupts]

end Operation

end

/-! ## What an operation has done -/

namespace Machine

open Bus (writeAll)

variable {m m' : Machine} {f : Fault} {completion : Completion}

/-! ### Leaving a service -/

theorem halt_of_servicing (h : m.interrupts.servicing = true) :
    halt m = ret { m with interrupts := m.interrupts.finish.2 } := by
  change (if m.interrupts.servicing = true then ret else proceed)
    { m with interrupts := m.interrupts.finish.2 } = _
  rw [if_pos h]

theorem halt_of_not_servicing (h : m.interrupts.servicing = false) :
    halt m = proceed .keep { m with interrupts := m.interrupts.finish.2 } := by
  change (if m.interrupts.servicing = true then ret else proceed)
    { m with interrupts := m.interrupts.finish.2 } = _
  rw [h, if_neg Bool.false_ne_true]

/-! ### Operations that complete -/

theorem call_ok {target : UInt16} (h : call target m.following m = .ok completion m') :
    (Operation.call target).Completed m completion.flags m' := by
  rw [call] at h
  cases hroutine : Routine.ofTarget target with
  | stream count =>
    rw [hroutine] at h
    obtain ⟨_, t, hstream, hrest⟩ := Faulting.exists_of_bind_ok h
    obtain ⟨sent, ports, houtputs, hsent, rfl⟩ := exists_of_stream_ok hstream
    cases hrest
    constructor
    · simp only [Operation.cells, hroutine]
      exact .refl _ _
    · simp only [Operation.stores, hroutine]
      rfl
    · simp only [Operation.outputs, hroutine]
      exact ⟨sent, houtputs, hsent⟩
    · exact fun _ ht ↦ ht
    · rw [Operation.control_call, hroutine]
      rfl
  | clearBank =>
    rw [hroutine] at h
    cases h
    refine .of_registers ?_ ?_ ?_ rfl ?_ fun _ ht ↦ ht
    · simp only [Operation.stores, hroutine]
    · simp only [Operation.outputs, hroutine]
    · rw [Operation.control_call, hroutine]
      rfl
    · simp only [Operation.cells, hroutine]
      exact RegisterFile.agreeOff_clearBank _ _
  | stored =>
    rw [hroutine] at h
    obtain ⟨_, t, hpush, hrest⟩ := Faulting.exists_of_bind_ok h
    obtain ⟨memory, hstored, rfl⟩ := exists_of_push_ok hpush
    cases hrest
    constructor
    · simp only [Operation.cells, hroutine]
      exact .refl _ _
    · simp only [Operation.stores, hroutine]
      exact hstored
    · simp only [Operation.outputs, hroutine]
      exact ⟨[], rfl, rfl⟩
    · exact fun _ ht ↦ ht
    · rw [Operation.control_call, hroutine]
      rfl

theorem ret_ok (h : ret m = .ok completion m') : Operation.ret.Completed m completion.flags m' := by
  obtain ⟨target, _, hpop, hrest⟩ := Faulting.exists_of_bind_ok h
  obtain ⟨-, rfl⟩ := eq_of_pop_ok hpop
  cases hrest
  exact ⟨.refl _ _, rfl, ⟨[], rfl, rfl⟩, fun _ ht ↦ ht, rfl⟩

theorem halt_ok (h : halt m = .ok completion m') :
    Operation.halt.Completed m completion.flags m' := by
  cases hservicing : m.interrupts.servicing with
  | true =>
    rw [halt_of_servicing hservicing] at h
    obtain ⟨target, _, hpop, hrest⟩ := Faulting.exists_of_bind_ok h
    obtain ⟨-, rfl⟩ := eq_of_pop_ok hpop
    cases hrest
    refine ⟨.refl _ _, rfl, ⟨[], rfl, rfl⟩, fun _ ht ↦ ht, ?_⟩
    rw [Operation.control_halt, if_pos hservicing]
    rfl
  | false =>
    rw [halt_of_not_servicing hservicing] at h
    cases h
    refine ⟨.refl _ _, rfl, ⟨[], rfl, rfl⟩, fun _ ht ↦ ht, ?_⟩
    rw [Operation.control_halt, hservicing, if_neg Bool.false_ne_true]
    rfl

theorem touches_combineFlags {op : DigitOp} {digit : UInt8} {carry : Bool} (step : Assignment)
    {flag : Flag} (h : (combineFlags op digit carry).touches flag = true) :
    (Operation.combine op step).touches flag = true := by
  rw [Operation.touches, Bool.or_eq_true]
  rw [combineFlags] at h
  split at h
  · next hsub => exact .inr hsub
  · exact .inl h

/-- **A completed operation** has done what it was about to do. -/
theorem perform_ok {op : Operation} (h : perform op m = .ok completion m') :
    op.Completed m completion.flags m' := by
  cases op with
  | idle | branch | branchBy | jump | jumpIf =>
    cases h
    exact .of_registers rfl rfl rfl rfl (.refl _ _) fun _ ht ↦ ht
  | compare | comparePairs =>
    cases h
    exact .of_registers rfl rfl rfl rfl (.refl _ _) fun _ _ ↦ rfl
  | combine op step =>
    cases h
    exact .of_registers rfl rfl rfl rfl
      (RegisterFile.agreeOff_set _ List.mem_cons_self) fun _ ↦ touches_combineFlags step
  | ripple op carry steps =>
    cases h
    exact .of_registers rfl rfl rfl rfl (RegisterFile.agreeOff_ripple _ _ _ _ _) fun _ ht ↦ ht
  | bitwise op r value =>
    cases h
    exact .of_registers rfl rfl rfl rfl
      (RegisterFile.agreeOff_set _ List.mem_cons_self) fun _ ht ↦ ht
  | assign dst src steps =>
    cases h
    exact .of_registers rfl rfl rfl rfl (RegisterFile.agreeOff_assign _ _ _ _) fun _ ht ↦ ht
  | selectBank role bank =>
    cases h
    cases role <;> exact ⟨.refl _ _, rfl, ⟨[], rfl, rfl⟩, fun _ ht ↦ ht, rfl⟩
  | pointMemory a =>
    cases h
    exact ⟨.refl _ _, rfl, ⟨[], rfl, rfl⟩, fun _ ht ↦ ht, rfl⟩
  | call target => exact call_ok h
  | ret => exact ret_ok h
  | halt => exact halt_ok h
  | store w advance =>
    obtain ⟨_, _, hstore, hrest⟩ := Faulting.exists_of_bind_ok h
    obtain ⟨memory, hmemory, rfl⟩ := exists_of_storeWindow_ok hstore
    cases hrest
    exact ⟨.refl _ _, hmemory, ⟨[], rfl, rfl⟩, fun _ ht ↦ ht, rfl⟩
  | load w advance =>
    obtain ⟨_, _, hload, hrest⟩ := Faulting.exists_of_bind_ok h
    obtain ⟨bytes, -, rfl⟩ := exists_of_loadWindow_ok hload
    cases hrest
    have hagree := w.agreeOff_fillSteps (unpack bytes w.length) m.registers (m.bank .current)
    simp only [fillWindow_eq]
    exact ⟨hagree, rfl, ⟨[], rfl, rfl⟩, fun _ ht ↦ ht, rfl⟩
  | send payload =>
    obtain ⟨_, _, hsend, hrest⟩ := Faulting.exists_of_bind_ok h
    obtain ⟨ports, hports, rfl⟩ := exists_of_send_ok hsend
    cases hrest
    exact ⟨.refl _ _, rfl, ⟨_, rfl, hports⟩, fun _ ht ↦ ht, rfl⟩
  | pointDisplay a =>
    obtain ⟨_, _, hpoint, hrest⟩ := Faulting.exists_of_bind_ok h
    obtain ⟨ports, hports, rfl⟩ := exists_of_pointDisplay_ok hpoint
    cases hrest
    refine ⟨.refl _ _, rfl, ⟨[(addressPort, a.toUInt8)], rfl, ?_⟩, fun _ ht ↦ ht, rfl⟩
    rw [Bus.writeAll_cons]
    exact Faulting.bind_of_ok hports
  | receive high low =>
    obtain ⟨_, _, hreceive, hrest⟩ := Faulting.exists_of_bind_ok h
    obtain ⟨byte, -, rfl⟩ := exists_of_receive_ok hreceive
    cases hrest
    refine .of_registers rfl rfl rfl rfl ?_ fun _ ht ↦ ht
    exact (RegisterFile.agreeOff_set _ List.mem_cons_self).trans
      (RegisterFile.agreeOff_set _ (List.mem_cons_of_mem _ List.mem_cons_self))

/-! ### Operations that fail

What follows the last access of an operation never fails, so the fault is one of an access. The
machine that is left would refuse the same access again.
-/

theorem call_stopped {target : UInt16} (h : call target m.following m = .error f m') :
    m'.Refuses f ∧ ∃ stored sent, (Operation.call target).Stopped m stored sent m' := by
  rw [call] at h
  cases hroutine : Routine.ofTarget target with
  | stream count =>
    rw [hroutine] at h
    have hstream := Faulting.error_of_bind_error (fun _ ↦ Faulting.safe_pure _) h
    obtain ⟨sent, refused, rest, ports, houtputs, hsent, hrefused, rfl⟩ :=
      exists_of_stream_error hstream
    constructor
    · obtain ⟨a, rfl⟩ := exists_of_mem_streamOutputs (houtputs ▸ List.mem_append_cons_self)
      rcases hrefused with hfetch | ⟨byte, -, hwrite⟩
      · exact .read a hfetch
      · exact .send byte (.inr rfl) hwrite
    · refine ⟨[], sent, .inl rfl, rfl, .inr ⟨refused, rest, ?_⟩, hsent, ?_⟩
      · simp only [Operation.outputs, hroutine]
        exact houtputs
      · rw [Operation.controlAfterFault_call, hroutine]
        rfl
  | clearBank =>
    rw [hroutine] at h
    cases h
  | stored =>
    rw [hroutine] at h
    have hpush := Faulting.error_of_bind_error (fun _ ↦ Faulting.safe_pure _) h
    obtain ⟨stored, refused, rest, memory, hstores, hstored, hrefused, rfl⟩ :=
      exists_of_push_error hpush
    constructor
    · exact refuses_of_store (fun _ ↦ exists_of_mem_wordStores) hstores hrefused
    · refine ⟨stored, [], .inr ⟨refused, rest, ?_⟩, hstored, .inl rfl, rfl, ?_⟩
      · simp only [Operation.stores, hroutine]
        exact hstores
      · rw [Operation.controlAfterFault_call, hroutine]
        rfl

theorem halt_stopped (h : halt m = .error f m') :
    m'.Refuses f ∧ ∃ stored sent, Operation.halt.Stopped m stored sent m' := by
  cases hservicing : m.interrupts.servicing with
  | true =>
    rw [halt_of_servicing hservicing] at h
    have hpop := Faulting.error_of_bind_error (fun _ ↦ Faulting.safe_pure _) h
    obtain ⟨htop, rfl⟩ := eq_of_pop_error hpop
    exact ⟨refuses_of_topWord htop, [], [], .inl rfl, rfl, .inl rfl, rfl, rfl⟩
  | false =>
    rw [halt_of_not_servicing hservicing] at h
    cases h

/-- **An operation that failed** has stored or sent a part of its bytes, and stands before an access
that is refused. -/
theorem perform_stopped {op : Operation} (h : perform op m = .error f m') :
    m'.Refuses f ∧ ∃ stored sent, op.Stopped m stored sent m' := by
  cases op with
  | idle | combine | ripple | compare | comparePairs | bitwise | assign | selectBank | branch
  | branchBy | jump | jumpIf | pointMemory => cases h
  | call target => exact call_stopped h
  | ret =>
    have hpop := Faulting.error_of_bind_error (fun _ ↦ Faulting.safe_pure _) h
    obtain ⟨htop, rfl⟩ := eq_of_pop_error hpop
    exact ⟨refuses_of_topWord htop, [], [], .of_unchanged rfl rfl⟩
  | halt => exact halt_stopped h
  | store w advance =>
    have hstore := Faulting.error_of_bind_error (fun _ ↦ safe_proceed _) h
    obtain ⟨stored, refused, rest, memory, hstores, hstored, hrefused, rfl⟩ :=
      exists_of_storeWindow_error hstore
    constructor
    · exact refuses_of_store (fun _ ↦ exists_of_mem_windowStores) hstores hrefused
    · exact ⟨stored, [], .inr ⟨refused, rest, hstores⟩, hstored, .inl rfl, rfl, rfl⟩
  | load w advance =>
    have hload := Faulting.error_of_bind_error (fun _ ↦ safe_proceed _) h
    obtain ⟨hbytes, rfl⟩ := eq_of_loadWindow_error hload
    exact ⟨refuses_of_mapM hbytes, [], [], .of_unchanged rfl rfl⟩
  | send payload =>
    have hsend := Faulting.error_of_bind_error (fun _ ↦ safe_proceed _) h
    obtain ⟨sent, byte, rest, ports, hstores, hsent, hrefused, rfl⟩ := exists_of_send_error hsend
    constructor
    · exact .send byte (.inr rfl) hrefused
    · refine ⟨[], sent, .inl rfl, rfl, .inr ⟨(dataPort, .ok byte), Bus.ready rest, ?_⟩, hsent, rfl⟩
      rw [Operation.outputs, hstores, Bus.ready_append]
      rfl
  | pointDisplay a =>
    have hpoint := Faulting.error_of_bind_error (fun _ ↦ safe_proceed _) h
    obtain ⟨hrefused, rfl⟩ := eq_of_pointDisplay_error hpoint
    exact ⟨.send a.toUInt8 (.inl rfl) hrefused, [], [], .inl rfl, rfl, .inl rfl, rfl, rfl⟩
  | receive high low =>
    have hreceive := Faulting.error_of_bind_error (fun _ ↦ safe_proceed _) h
    obtain ⟨hbyte, rfl⟩ := eq_of_receive_error hreceive
    exact ⟨.receive hbyte, [], [], .of_unchanged rfl rfl⟩

theorem perform_error {op : Operation} (h : perform op m = .error f m') :
    ∃ stored sent, op.Stopped m stored sent m' := (perform_stopped h).2

end Machine

end CalcWatch
