import CalcWatch.Proofs.Execution.Operations

/-!
# Steps and the footprint of an instruction

A step is taken apart into the entry of a routine and the instruction that it performs, and the
instruction is told what it may change by its form.

## What a step is made of

A step enters the routine of an interrupt or performs the instruction at the program counter. The
routines of interrupts are stored in memory, so entering one pushes the program counter and does
nothing else to the buses. There are two ways in which a step completes and three in which it fails,
`step_ok_cases` and `step_error_cases`, and later proofs split a step in no other way.

## The footprint of an instruction

What an instruction may change, form by form: `writtenCells`, `storedBytes`, `sentBytes` and
`Flag.forms`. This is the table a programmer reads, and it is written down from the fields of the
word without regard to how the instruction is carried out. That the operation behind an instruction
keeps to it is shown at the end, one case for each form. Two forms need more than a look at the
table: a window that is filled in another order than it is listed has the same cells, and what a
call does depends on its target.
-/

namespace CalcWatch

/-! ## What a step is made of -/

namespace Machine

open Bus (writeAll)

variable {m m' : Machine} {f : Fault} {source : InterruptSource}

/-! ### Entering the routine of an interrupt -/

theorem routine_stored (source : InterruptSource) : Routine.ofTarget source.routine = .stored := by
  cases source <;> rfl

/-- The machine once an interrupt was acknowledged. -/
def acknowledge (m : Machine) (source : InterruptSource) : Machine :=
  { m with interrupts := m.interrupts.enter source }

theorem enterService_apply (source : InterruptSource) (m : Machine) :
    enterService source m = ((push m.control.pc >>= fun _ ↦ pure ⟨.keep, source.routine⟩) >>=
      fun completion ↦ Faulting.update (·.complete completion)) (m.acknowledge source) := by
  have hcall : call source.routine m.control.pc
      = (push m.control.pc >>= fun _ ↦ pure ⟨.keep, source.routine⟩) := by
    rw [call, routine_stored]
  rw [← hcall]
  rfl

theorem exists_of_enterService_ok (h : enterService source m = .ok () m') :
    ∃ memory, writeAll (wordStores (m.control.sp - 2) m.control.pc) m.memory = .ok () memory ∧
      m' = { m.acknowledge source with
        control := { m.control with pc := source.routine, sp := m.control.sp - 2 }, memory } := by
  rw [enterService_apply] at h
  obtain ⟨completion, t, hcall, hcomplete⟩ := Faulting.exists_of_bind_ok h
  obtain ⟨_, t', hpush, hpure⟩ := Faulting.exists_of_bind_ok hcall
  obtain ⟨memory, hstored, rfl⟩ := exists_of_push_ok hpush
  cases hpure
  cases hcomplete
  exact ⟨memory, hstored, rfl⟩

/-- An entry that fails has acknowledged the interrupt and lowered the stack pointer. -/
theorem exists_of_enterService_error (h : enterService source m = .error f m') :
    ∃ stored refused rest memory,
      wordStores (m.control.sp - 2) m.control.pc = stored ++ refused :: rest ∧
      writeAll stored m.memory = .ok () memory ∧
      Bus.write refused.1 refused.2 memory = .error f memory ∧
      m' = { m.acknowledge source with
        control := { m.control with sp := m.control.sp - 2 }, memory } := by
  rw [enterService_apply] at h
  have hcall := Faulting.error_of_bind_error (fun _ ↦ Faulting.safe_update _) h
  have hpush := Faulting.error_of_bind_error (fun _ ↦ Faulting.safe_pure _) hcall
  exact exists_of_push_error hpush

/-! ### Performing the next instruction -/

theorem exists_of_execute_ok {inst : Instruction} (h : execute inst m = .ok () m') :
    ∃ completion t, perform inst.operation m = .ok completion t ∧ m' = t.complete completion := by
  obtain ⟨completion, t, hperform, hcomplete⟩ := Faulting.exists_of_bind_ok h
  cases hcomplete
  exact ⟨completion, t, hperform, rfl⟩

theorem perform_of_execute_error {inst : Instruction} (h : execute inst m = .error f m') :
    perform inst.operation m = .error f m' :=
  Faulting.error_of_bind_error (fun _ ↦ Faulting.safe_update _) h

/-! ### Steps -/

theorem step_of_due (hdue : m.interrupts.next? = some source) :
    step m = (enterService source >>= fun _ ↦ pure instructionBytes) m := by
  rw [step, Faulting.bind_of_ok (Faulting.view_apply _ m), hdue]

theorem step_of_not_due (hdue : m.interrupts.next? = none) :
    step m = (executeNext >>= fun _ ↦ pure instructionBytes) m := by
  rw [step, Faulting.bind_of_ok (Faulting.view_apply _ m), hdue]

/-- A word that cannot be fetched or classified stops the machine where it stands. -/
theorem step_of_nextInstruction_error (hdue : m.interrupts.next? = none)
    (h : m.nextInstruction = .error f) : step m = .error f m := by
  have hnext : executeNext m = .error f m := Faulting.bind_of_error (Faulting.ask_of_error h)
  rw [step_of_not_due hdue, Faulting.bind_of_error hnext]

theorem step_of_nextInstruction_ok {inst : Instruction} (hdue : m.interrupts.next? = none)
    (h : m.nextInstruction = .ok inst) :
    step m = (execute inst >>= fun _ ↦ pure instructionBytes) m := by
  rw [step_of_not_due hdue, executeNext, bind_assoc, Faulting.bind_of_ok (Faulting.ask_of_ok h)]

/-- A step that completes enters a routine or performs the next instruction. -/
theorem step_ok_cases {length : UInt8} (h : step m = .ok length m') :
    length = instructionBytes ∧
      ((∃ source, m.interrupts.next? = some source ∧ enterService source m = .ok () m') ∨
      ∃ inst completion t, m.interrupts.next? = none ∧ m.nextInstruction = .ok inst ∧
        perform inst.operation m = .ok completion t ∧ m' = t.complete completion) := by
  cases hdue : m.interrupts.next? with
  | some source =>
    rw [step_of_due hdue] at h
    obtain ⟨_, t, henter, hpure⟩ := Faulting.exists_of_bind_ok h
    cases hpure
    exact ⟨rfl, .inl ⟨source, rfl, henter⟩⟩
  | none =>
    cases hinst : m.nextInstruction with
    | error f =>
      rw [step_of_nextInstruction_error hdue hinst] at h
      cases h
    | ok inst =>
      rw [step_of_nextInstruction_ok hdue hinst] at h
      obtain ⟨_, t, hexecute, hpure⟩ := Faulting.exists_of_bind_ok h
      cases hpure
      obtain ⟨completion, t', hperform, hcomplete⟩ := exists_of_execute_ok hexecute
      exact ⟨rfl, .inr ⟨inst, completion, t', rfl, rfl, hperform, hcomplete⟩⟩

/-- A step that fails does so when it enters a routine, when it fetches or decodes an instruction,
or when it performs the instruction. -/
theorem step_error_cases (h : step m = .error f m') :
    (∃ source, m.interrupts.next? = some source ∧ enterService source m = .error f m') ∨
    (m.interrupts.next? = none ∧ m.nextInstruction = .error f ∧ m' = m) ∨
    ∃ inst, m.interrupts.next? = none ∧ m.nextInstruction = .ok inst ∧
      perform inst.operation m = .error f m' := by
  cases hdue : m.interrupts.next? with
  | some source =>
    rw [step_of_due hdue] at h
    have henter := Faulting.error_of_bind_error (fun _ ↦ Faulting.safe_pure _) h
    exact .inl ⟨source, rfl, henter⟩
  | none =>
    cases hinst : m.nextInstruction with
    | error g =>
      rw [step_of_nextInstruction_error hdue hinst] at h
      cases h
      exact .inr (.inl ⟨rfl, rfl, rfl⟩)
    | ok inst =>
      rw [step_of_nextInstruction_ok hdue hinst] at h
      have hexecute := Faulting.error_of_bind_error (fun _ ↦ Faulting.safe_pure _) h
      exact .inr (.inr ⟨inst, rfl, rfl, perform_of_execute_error hexecute⟩)

end Machine

/-! ## The footprint of an instruction -/

section

open Bus (Output ready)
open Machine (wordStores toDataPort)

def Flag.forms : Flag → List Form
  | carry =>
    [.add, .adb, .sub, .sbb, .adm, .adbm, .sbm, .sbbm, .cmp, .cpm, .cpi, .adi, .adbi, .sbi, .sbbi,
      .inc, .incb, .dec, .decb]
  | zero => [.sub, .sbb, .cmp, .cpm, .cpi, .sbi, .sbbi]

namespace Instruction

variable (inst : Instruction) (m : Machine)

/-! ### The table -/

/-- Whether the instruction calls a routine of some kind. -/
def Calls (routine : Routine) : Prop := inst.form = .call ∧ Routine.ofTarget inst.target12 = routine

/-- The cells that the instruction may write. -/
def writtenCells : List Cell :=
  match inst.form with
  | .add | .adb | .sub | .sbb | .adi | .adbi | .sbi | .sbbi | .andi | .ori | .xori
  | .mov | .ldi | .mvac => [(m.bank .current).cell inst.d]
  | .adm | .adbm | .sbm | .sbbm | .movm | .rshm | .lshm | .clrm | .mvacm | .plam | .ldsm =>
    inst.destination.registers.map (m.bank .current).cell
  | .inc | .incb | .dec | .decb => inst.groupRegisters.map (m.bank .current).cell
  | .inp => [(m.bank .current).cell inst.d, (m.bank .current).cell inst.s]
  | .mvca => [(m.bank .additional).cell inst.d]
  | .mvcam => inst.destination.registers.map (m.bank .additional).cell
  | .call =>
    match Routine.ofTarget inst.target12 with
    | .clearBank => (List.finRange 32).map ((m.bank .current).slot, ·)
    | _ => []
  | _ => []

def storedBytes : List (UInt32 × UInt8) :=
  match inst.form with
  | .psam | .stsm => m.windowStores inst.destination
  | .call =>
    match Routine.ofTarget inst.target12 with
    | .stored => wordStores (m.control.sp - 2) m.following
    | _ => []
  | _ => []

def sentBytes : List Output :=
  match inst.form with
  | .stl => [(dataPort, .ok (m.reg inst.d <<< 4 ||| m.reg inst.s))]
  | .stlm => ready (toDataPort (m.windowBytes inst.destination))
  | .stli => [(dataPort, .ok inst.immediate8)]
  | .plai => [(addressPort, .ok inst.immediate10.toUInt8)]
  | .call =>
    match Routine.ofTarget inst.target12 with
    | .stream count => m.streamOutputs count
    | _ => []
  | _ => []

/-! ### Operations keep to the table -/

private theorem map_cell_target_subset_of_eq (bank : Bank) {steps : List Assignment}
    {regs : List Reg} (h : steps.map (·.target) = regs) :
    (steps.map fun step ↦ bank.cell step.target) ⊆ regs.map bank.cell := by
  rw [← h]
  exact map_cell_target_subset bank (List.Subset.refl _)

theorem cells_operation_subset : inst.operation.cells m ⊆ inst.writtenCells m := by
  obtain ⟨word, form⟩ := inst
  cases form with
  | adm | adbm | sbm | sbbm | mvacm | mvcam =>
    exact map_cell_target_subset_of_eq _ (map_target_zipWith _ _)
  | movm => exact map_cell_target_subset_of_eq _ (map_target_zipDown _ _)
  | rshm => exact map_cell_target_subset _ (target_shiftUp_subset _)
  | lshm => exact map_cell_target_subset _ (target_shiftDown_subset _)
  | clrm => exact map_cell_target_subset_of_eq _ (map_target_clear _)
  | inc | incb | dec | decb => exact map_cell_target_subset_of_eq _ (map_target_groupSteps _)
  | _ => exact List.Subset.refl _

theorem stores_operation : inst.operation.stores m = inst.storedBytes m := by
  obtain ⟨word, form⟩ := inst
  cases form <;> rfl

theorem outputs_operation : inst.operation.outputs m = inst.sentBytes m := by
  obtain ⟨word, form⟩ := inst
  cases form <;> rfl

theorem mem_forms_of_touches {flag : Flag} (h : inst.operation.touches flag = true) :
    inst.form ∈ flag.forms := by
  obtain ⟨word, form⟩ := inst
  cases form <;> cases flag <;> first | exact Bool.noConfusion h | simp [Flag.forms]

/-! ### Where the table is empty -/

theorem storedBytes_eq_nil_or :
    inst.storedBytes m = [] ∨ inst.form ∈ [.psam, .stsm] ∨ inst.Calls .stored := by
  obtain ⟨word, form⟩ := inst
  cases form with
  | psam | stsm => exact .inr (.inl (by simp))
  | call =>
    cases hroutine : Routine.ofTarget (Instruction.mk word .call).target12 with
    | stored => exact .inr (.inr ⟨rfl, hroutine⟩)
    | clearBank | stream => exact .inl (by simp only [storedBytes, hroutine])
  | _ => exact .inl rfl

theorem sentBytes_eq_nil_or :
    inst.sentBytes m = [] ∨ inst.form ∈ [.stl, .stlm, .stli, .plai] ∨
      ∃ count, inst.Calls (.stream count) := by
  obtain ⟨word, form⟩ := inst
  cases form with
  | stl | stlm | stli | plai => exact .inr (.inl (by simp))
  | call =>
    cases hroutine : Routine.ofTarget (Instruction.mk word .call).target12 with
    | stream count => exact .inr (.inr ⟨count, rfl, hroutine⟩)
    | clearBank | stored => exact .inl (by simp only [sentBytes, hroutine])
  | _ => exact .inl rfl

/-! ### Control registers and interrupts -/

theorem sp_control : (inst.operation.control m).sp = m.control.sp ∨ inst.form = .ret ∨
    (inst.form = .hlt ∧ m.interrupts.servicing = true) ∨ inst.Calls .stored := by
  obtain ⟨word, form⟩ := inst
  cases form with
  | ret => exact .inr (.inl rfl)
  | hlt =>
    cases hservicing : m.interrupts.servicing with
    | true => exact .inr (.inr (.inl ⟨rfl, rfl⟩))
    | false =>
      refine .inl ?_
      change (Operation.halt.control m).sp = _
      rw [Operation.control_halt, hservicing, if_neg Bool.false_ne_true]
  | call =>
    cases hroutine : Routine.ofTarget (Instruction.mk word .call).target12 with
    | stored => exact .inr (.inr (.inr ⟨rfl, hroutine⟩))
    | clearBank | stream =>
      refine .inl ?_
      change (Routine.ofTarget _).spAfter m = _
      rw [hroutine]
      rfl
  | _ => exact .inl rfl

theorem sa_control : (inst.operation.control m).sa = m.control.sa ∨
    inst.form ∈ [.psam, .plam, .psai] ∨ ∃ count, inst.Calls (.stream count) := by
  obtain ⟨word, form⟩ := inst
  cases form with
  | psam | plam | psai => exact .inr (.inl (by simp))
  | call =>
    cases hroutine : Routine.ofTarget (Instruction.mk word .call).target12 with
    | stream count => exact .inr (.inr ⟨count, rfl, hroutine⟩)
    | clearBank | stored =>
      refine .inl ?_
      change (Routine.ofTarget _).saAfter m _ = _
      rw [hroutine]
      rfl
  | _ => exact .inl rfl

theorem la_control : (inst.operation.control m).la = m.control.la ∨ inst.form = .plai := by
  obtain ⟨word, form⟩ := inst
  cases form with
  | plai => exact .inr rfl
  | _ => exact .inl rfl

theorem currentBank_control :
    (inst.operation.control m).currentBank = m.control.currentBank ∨ inst.form = .lcrb := by
  obtain ⟨word, form⟩ := inst
  cases form with
  | lcrb => exact .inr rfl
  | _ => exact .inl rfl

theorem additionalBank_control :
    (inst.operation.control m).additionalBank = m.control.additionalBank ∨ inst.form = .larb := by
  obtain ⟨word, form⟩ := inst
  cases form with
  | larb => exact .inr rfl
  | _ => exact .inl rfl

theorem interrupts_operation : inst.operation.interrupts m = m.interrupts ∨
    (inst.form = .hlt ∧ m.interrupts.servicing = true ∧
      inst.operation.interrupts m = m.interrupts.finish.2) := by
  obtain ⟨word, form⟩ := inst
  cases form with
  | hlt =>
    cases hservicing : m.interrupts.servicing with
    | true => exact .inr ⟨rfl, rfl, rfl⟩
    | false =>
      refine .inl ?_
      change { m.interrupts with servicing := false } = m.interrupts
      rw [← hservicing]
  | _ => exact .inl rfl

/-! ### Control registers after a fault -/

variable (sent : ℕ)

theorem sp_controlAfterFault : (inst.operation.controlAfterFault m sent).sp = m.control.sp ∨
    (inst.Calls .stored ∧
      (inst.operation.controlAfterFault m sent).sp = m.control.sp - 2) := by
  obtain ⟨word, form⟩ := inst
  cases form with
  | call =>
    cases hroutine : Routine.ofTarget (Instruction.mk word .call).target12 with
    | stored =>
      refine .inr ⟨⟨rfl, hroutine⟩, ?_⟩
      change (Routine.ofTarget _).spAfter m = _
      rw [hroutine]
      rfl
    | clearBank | stream =>
      refine .inl ?_
      change (Routine.ofTarget _).spAfter m = _
      rw [hroutine]
      rfl
  | _ => exact .inl rfl

theorem sa_controlAfterFault : (inst.operation.controlAfterFault m sent).sa = m.control.sa ∨
    ((∃ count, inst.Calls (.stream count)) ∧
      (inst.operation.controlAfterFault m sent).sa = m.control.sa + UInt16.ofNat sent) := by
  obtain ⟨word, form⟩ := inst
  cases form with
  | call =>
    cases hroutine : Routine.ofTarget (Instruction.mk word .call).target12 with
    | stream count =>
      refine .inr ⟨⟨count, rfl, hroutine⟩, ?_⟩
      change (Routine.ofTarget _).saAfter m _ = _
      rw [hroutine]
      rfl
    | clearBank | stored =>
      refine .inl ?_
      change (Routine.ofTarget _).saAfter m _ = _
      rw [hroutine]
      rfl
  | _ => exact .inl rfl

theorem la_controlAfterFault : (inst.operation.controlAfterFault m sent).la = m.control.la ∨
    (inst.form = .plai ∧ (inst.operation.controlAfterFault m sent).la = inst.immediate10) := by
  obtain ⟨word, form⟩ := inst
  cases form with
  | plai => exact .inr ⟨rfl, rfl⟩
  | _ => exact .inl rfl

end Instruction

end

end CalcWatch
