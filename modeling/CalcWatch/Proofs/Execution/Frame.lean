import CalcWatch.Proofs.Execution.Steps

/-!
# What a step leaves

The frame of an instruction that completed, and what is left after one that did not. Both are read
off the footprint of the instruction, and neither looks at an operation again: whatever an operation
has done is known from `Completed` and `Stopped`.

## The frame of an instruction

An instruction that completes changes nothing but the program counter and what its form names: the
cells of its windows, the flags it sets, and here and there a control register, the interrupt
controller or a bus. Each field of `Instruction.Frame` speaks of one part of the machine.

## What a failing step leaves behind

A step that fails has not completed its instruction: the program counter, the flags, the banks and
all cells are as they were. What can have changed is what an instruction does before its last access
to a bus, and of the bytes it stores or sends the ones before the refused one. What a step is about
to store and to send is known before it begins, `storesAhead` and `outputsAhead`. The bytes that it
got rid of are a proper part of these, from the first one on, and the buses are as these bytes leave
them.
-/

namespace CalcWatch

/-! ## The frame of an instruction -/

/-- Nothing has changed but the program counter and what the form of the instruction names. -/
structure Instruction.Frame (inst : Instruction) (m m' : Machine) : Prop where
  registers : m.registers.AgreeOff (inst.writtenCells m) m'.registers
  /-- The bits of the flags byte that are no flags. -/
  flags : m'.control.flags &&& 0xFC = m.control.flags &&& 0xFC
  flag : ∀ flag, inst.form ∉ flag.forms → m'.control.flag flag = m.control.flag flag
  sp : m'.control.sp = m.control.sp ∨ inst.form = .ret ∨
    (inst.form = .hlt ∧ m.interrupts.servicing = true) ∨ inst.Calls .stored
  sa : m'.control.sa = m.control.sa ∨ inst.form ∈ [.psam, .plam, .psai] ∨
    ∃ count, inst.Calls (.stream count)
  la : m'.control.la = m.control.la ∨ inst.form = .plai
  currentBank : m'.control.currentBank = m.control.currentBank ∨ inst.form = .lcrb
  additionalBank : m'.control.additionalBank = m.control.additionalBank ∨ inst.form = .larb
  interrupts : m'.interrupts = m.interrupts ∨ inst.form = .hlt
  memory : m'.memory = m.memory ∨ inst.form ∈ [.psam, .stsm] ∨ inst.Calls .stored
  ports : m'.ports = m.ports ∨ inst.form ∈ [.stl, .stlm, .stli, .plai] ∨
    ∃ count, inst.Calls (.stream count)
  reset : m'.resetPc = m.resetPc ∧ m'.resetSp = m.resetSp

namespace Machine

theorem control_complete (m : Machine) (completion : Completion) :
    (m.complete completion).control = { m.control with
      pc := completion.nextPc, flags := (completion.flags.apply m.control).flags } := by
  rw [complete, FlagUpdate.apply_eq]

variable {m m' : Machine} {completion : Completion}

theorem frame_of_completed {inst : Instruction}
    (h : inst.operation.Completed m completion.flags m') :
    inst.Frame m (m'.complete completion) := by
  have hcontrol : m'.control = inst.operation.control m := by rw [h.eq]
  have hinterrupts : m'.interrupts = inst.operation.interrupts m := by rw [h.eq]
  have hreset : m'.resetPc = m.resetPc ∧ m'.resetSp = m.resetSp := by rw [h.eq]; exact ⟨rfl, rfl⟩
  constructor
  case registers => exact h.registers.mono (inst.cells_operation_subset m)
  case flags =>
    change (completion.flags.apply m'.control).flags &&& 0xFC = _
    rw [FlagUpdate.flags_apply_and, hcontrol, Operation.flags_control]
  case flag =>
    intro flag hform
    have htouches : completion.flags.touches flag = false := by
      rw [← Bool.not_eq_true]
      exact fun ht ↦ hform (inst.mem_forms_of_touches (h.flags_touches flag ht))
    change (completion.flags.apply m'.control).flag flag = _
    rw [FlagUpdate.flag_apply _ _ htouches, hcontrol, Control.flag, Operation.flags_control]
    rfl
  case sp =>
    rw [control_complete, hcontrol]
    exact inst.sp_control m
  case sa =>
    rw [control_complete, hcontrol]
    exact inst.sa_control m
  case la =>
    rw [control_complete, hcontrol]
    exact inst.la_control m
  case currentBank =>
    rw [control_complete, hcontrol]
    exact inst.currentBank_control m
  case additionalBank =>
    rw [control_complete, hcontrol]
    exact inst.additionalBank_control m
  case interrupts =>
    change m'.interrupts = _ ∨ _
    rw [hinterrupts]
    exact (inst.interrupts_operation m).imp_right And.left
  case memory =>
    rcases inst.storedBytes_eq_nil_or m with hnil | hform
    · have hmemory := h.memory
      rw [inst.stores_operation, hnil, Bus.writeAll_nil] at hmemory
      injection hmemory with _ hmemory
      exact .inl hmemory.symm
    · exact .inr hform
  case ports =>
    rcases inst.sentBytes_eq_nil_or m with hnil | hform
    · obtain ⟨sent, hsent, hports⟩ := h.ports
      rw [inst.outputs_operation, hnil, eq_comm, Bus.ready, List.map_eq_nil_iff] at hsent
      rw [hsent, Bus.writeAll_nil] at hports
      injection hports with _ hports
      exact .inl hports.symm
    · exact .inr hform
  case reset => exact hreset

/-- **The frame of an instruction.** A step that enters no routine of an interrupt performs one
instruction, and changes nothing but the program counter and what the form names. -/
theorem step_frame {length : UInt8} (hdue : m.interrupts.next? = none)
    (h : step m = .ok length m') :
    ∃ inst, m.nextInstruction = .ok inst ∧ inst.Frame m m' := by
  obtain ⟨-, ⟨source, hsource, -⟩ | ⟨inst, completion, t, -, hinst, hperform, rfl⟩⟩ :=
    step_ok_cases h
  · rw [hdue] at hsource
    cases hsource
  · exact ⟨inst, hinst, frame_of_completed (perform_ok hperform)⟩

/-- A machine whose memory is one word, `MOV R1, R12`. -/
private def moving (pc : UInt16) : Machine where
  control := { pc }
  memory := ⟨"memory", [.store { range := .between 0x1800 0x1802, cells := .replicate _ 0x2C }]⟩
  ports := ⟨"io", []⟩

theorem step_frame_mov :
    (moving 0x1800).interrupts.next? = none ∧
      step (moving 0x1800) = .ok instructionBytes (moving 0x1802) ∧
      ∃ inst, (moving 0x1800).nextInstruction = .ok inst ∧
        inst.Frame (moving 0x1800) (moving 0x1802) := by
  have hdue : (moving 0x1800).interrupts.next? = none := rfl
  have hstep : step (moving 0x1800) = .ok instructionBytes (moving 0x1802) := rfl
  exact ⟨hdue, hstep, step_frame hdue hstep⟩

end Machine

/-! ## What a failing step leaves behind -/

namespace Machine

open Bus (Output ready writeAll)

/-! ### What a step is about to do -/

def Performs (m : Machine) (inst : Instruction) : Prop :=
  m.interrupts.next? = none ∧ m.nextInstruction = .ok inst

def storesAhead (m : Machine) : List (UInt32 × UInt8) :=
  match m.interrupts.next?, m.nextInstruction with
  | some _, _ => wordStores (m.control.sp - 2) m.control.pc
  | none, .ok inst => inst.storedBytes m
  | none, .error _ => []

def outputsAhead (m : Machine) : List Output :=
  match m.interrupts.next?, m.nextInstruction with
  | some _, _ => []
  | none, .ok inst => inst.sentBytes m
  | none, .error _ => []

theorem storesAhead_of_due {m : Machine} {source : InterruptSource}
    (h : m.interrupts.next? = some source) :
    m.storesAhead = wordStores (m.control.sp - 2) m.control.pc := by
  rw [storesAhead, h]

theorem storesAhead_of_performs {m : Machine} {inst : Instruction} (h : m.Performs inst) :
    m.storesAhead = inst.operation.stores m := by
  rw [storesAhead, h.1, h.2, inst.stores_operation]

theorem outputsAhead_of_performs {m : Machine} {inst : Instruction} (h : m.Performs inst) :
    m.outputsAhead = inst.operation.outputs m := by
  rw [outputsAhead, h.1, h.2, inst.outputs_operation]

/-! ### What is left -/

/-- What a step leaves that failed with `f` after it had stored and sent some bytes. -/
structure AfterFault (m : Machine) (f : Fault) (stored sent : List (UInt32 × UInt8))
    (m' : Machine) : Prop where
  registers : m'.registers = m.registers
  pc : m'.control.pc = m.control.pc
  flags : m'.control.flags = m.control.flags
  currentBank : m'.control.currentBank = m.control.currentBank
  additionalBank : m'.control.additionalBank = m.control.additionalBank
  /-- A step without an instruction fails for that reason and changes nothing. -/
  unchanged : m.interrupts.next? = none → ∀ g, m.nextInstruction = .error g → f = g ∧ m' = m
  /-- The stack pointer is lowered before the return address is stored. -/
  sp : m'.control.sp = m.control.sp ∨
    ((∃ source, m.interrupts.next? = some source) ∨ ∃ inst, m.Performs inst ∧ inst.Calls .stored) ∧
      m'.control.sp = m.control.sp - 2
  /-- The transfer address follows a stream. -/
  sa : m'.control.sa = m.control.sa ∨
    (∃ inst count, m.Performs inst ∧ inst.Calls (.stream count)) ∧
      m'.control.sa = m.control.sa + UInt16.ofNat sent.length
  /-- The display address is set before it is sent. -/
  la : m'.control.la = m.control.la ∨
    ∃ inst, m.Performs inst ∧ inst.form = .plai ∧ m'.control.la = inst.immediate10
  /-- An interrupt is acknowledged before its routine is entered, and left before the return. -/
  interrupts : m'.interrupts = m.interrupts ∨
    (∃ source, m.interrupts.next? = some source ∧ m'.interrupts = m.interrupts.enter source) ∨
    ∃ inst, m.Performs inst ∧ inst.form = .hlt ∧ m.interrupts.servicing = true ∧
      m'.interrupts = m.interrupts.finish.2
  /-- At least one byte was not stored, or none was to be. -/
  stored_part : stored = [] ∨ ∃ refused rest, m.storesAhead = stored ++ refused :: rest
  memory : writeAll stored m.memory = .ok () m'.memory
  /-- At least one byte was not sent, or none was to be. -/
  sent_part : sent = [] ∨ ∃ refused rest, m.outputsAhead = ready sent ++ refused :: rest
  ports : writeAll sent m.ports = .ok () m'.ports
  reset : m'.resetPc = m.resetPc ∧ m'.resetSp = m.resetSp

variable {m m' : Machine} {f : Fault}

theorem afterFault_of_enterService {source : InterruptSource}
    (hdue : m.interrupts.next? = some source) (h : enterService source m = .error f m') :
    ∃ stored sent, m.AfterFault f stored sent m' := by
  obtain ⟨stored, refused, rest, memory, hstores, hstored, -, rfl⟩ :=
    exists_of_enterService_error h
  have hahead : m.storesAhead = stored ++ refused :: rest := by
    rw [storesAhead_of_due hdue, hstores]
  refine ⟨stored, [], ?_⟩
  constructor
  case unchanged =>
    intro hnone
    rw [hdue] at hnone
    cases hnone
  case sp => exact .inr ⟨.inl ⟨source, hdue⟩, rfl⟩
  case sa => exact .inl rfl
  case la => exact .inl rfl
  case interrupts => exact .inr (.inl ⟨source, hdue, rfl⟩)
  case stored_part => exact .inr ⟨refused, rest, hahead⟩
  case memory => exact hstored
  case sent_part => exact .inl rfl
  case reset => exact ⟨rfl, rfl⟩
  all_goals rfl

theorem afterFault_of_nextInstruction (h : m.nextInstruction = .error f) :
    m.AfterFault f [] [] m := by
  constructor
  case unchanged =>
    intro _ g hg
    rw [h] at hg
    cases hg
    exact ⟨rfl, rfl⟩
  case reset => exact ⟨rfl, rfl⟩
  all_goals first | rfl | exact .inl rfl

theorem afterFault_of_stopped {inst : Instruction} {stored sent : List (UInt32 × UInt8)}
    (hperforms : m.Performs inst) (h : inst.operation.Stopped m stored sent m') :
    m.AfterFault f stored sent m' := by
  have hcontrol : m'.control = inst.operation.controlAfterFault m sent.length := by rw [h.eq]
  have hinterrupts : m'.interrupts = inst.operation.interrupts m := by rw [h.eq]
  obtain ⟨hdue, hinst⟩ := hperforms
  constructor
  case registers => rw [h.eq]
  case pc => rw [hcontrol, Operation.controlAfterFault_eq]
  case flags => rw [hcontrol, Operation.controlAfterFault_eq]
  case currentBank => rw [hcontrol, Operation.controlAfterFault_eq]
  case additionalBank => rw [hcontrol, Operation.controlAfterFault_eq]
  case unchanged =>
    intro _ g hg
    rw [hinst] at hg
    cases hg
  case sp =>
    rw [hcontrol]
    refine (inst.sp_controlAfterFault m sent.length).imp_right fun ⟨hcalls, hsp⟩ ↦ ?_
    exact ⟨.inr ⟨inst, ⟨hdue, hinst⟩, hcalls⟩, hsp⟩
  case sa =>
    rw [hcontrol]
    refine (inst.sa_controlAfterFault m sent.length).imp_right fun ⟨⟨count, hcalls⟩, hsa⟩ ↦ ?_
    exact ⟨⟨inst, count, ⟨hdue, hinst⟩, hcalls⟩, hsa⟩
  case la =>
    rw [hcontrol]
    refine (inst.la_controlAfterFault m sent.length).imp_right fun ⟨hform, hla⟩ ↦ ?_
    exact ⟨inst, ⟨hdue, hinst⟩, hform, hla⟩
  case interrupts =>
    rw [hinterrupts]
    refine (inst.interrupts_operation m).imp_right fun ⟨hform, hservicing, hfinish⟩ ↦ .inr ?_
    exact ⟨inst, ⟨hdue, hinst⟩, hform, hservicing, hfinish⟩
  case stored_part =>
    rw [storesAhead_of_performs ⟨hdue, hinst⟩]
    exact h.stored_part
  case memory => exact h.memory
  case sent_part =>
    rw [outputsAhead_of_performs ⟨hdue, hinst⟩]
    exact h.sent_part
  case ports => exact h.ports
  case reset =>
    rw [h.eq]
    exact ⟨rfl, rfl⟩

/-- **What a failing step leaves behind.** -/
theorem step_error (h : step m = .error f m') : ∃ stored sent, m.AfterFault f stored sent m' := by
  rcases step_error_cases h with ⟨source, hdue, henter⟩ | ⟨-, hfault, rfl⟩ |
    ⟨inst, hdue, hinst, hperform⟩
  · exact afterFault_of_enterService hdue henter
  · exact ⟨[], [], afterFault_of_nextInstruction hfault⟩
  · obtain ⟨stored, sent, hstopped⟩ := perform_error hperform
    exact ⟨stored, sent, afterFault_of_stopped ⟨hdue, hinst⟩ hstopped⟩

/-- A machine whose memory is one word, `CALL 0x1554`, so that nothing holds its stack. -/
private def calling (sp : UInt16) : Machine where
  control := { sp }
  memory := ⟨"memory", [.store { range := .between 0x1800 0x1802, cells := .replicate _ 0xAA }]⟩
  ports := ⟨"io", []⟩

theorem step_error_call :
    step (calling 0x2000) = .error (.unmappedAddress 0x1FFE) (calling 0x1FFE) ∧
      ∃ stored sent, (calling 0x2000).AfterFault (.unmappedAddress 0x1FFE) stored sent
        (calling 0x1FFE) := by
  have hstep : step (calling 0x2000) = .error (.unmappedAddress 0x1FFE) (calling 0x1FFE) := rfl
  exact ⟨hstep, step_error hstep⟩

end Machine

end CalcWatch
