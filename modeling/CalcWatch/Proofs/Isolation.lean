import CalcWatch.Proofs.Runs.Stimuli
import Mathlib.Order.Basic

/-!
# Banks that are not selected

A step cannot see the banks that are not selected, and it cannot change them. The first is a
statement about two runs of the same step, the second about one.

## Files and machines that agree in some banks

A step works in two banks, the current one and the additional one. Two machines that differ in the
others alone are `Twins`: whatever a step may ask about the registers has the same answer in both,
and the same changes leave them twins. Which banks they agree in is a parameter of the relation and
not read off the machine. For a step may select another bank, and then the twins stay alike only in
the banks that were selected when it began; but no register is looked at after that.

## Unselected banks are out of reach

No part of a step reads a bank that is not selected, so two machines that differ in such banks alone
go through it side by side: they answer the same, fail with the same fault, and agree again
afterwards. The proof goes through the operations one by one with the rules for related
computations, and it is the same walk as for an invariant, with a pair of machines in the place of
one. What a step writes lies in the selected banks as well, whichever way it ends; that is read off
the cells that its operation writes.
-/

namespace CalcWatch

/-! ## Files and machines that agree in some banks -/

/-! ### Files that agree in some banks -/

namespace RegisterFile

/-- Two files hold the same in some banks. -/
def AgreeIn (slots : List (Fin 4)) (file file' : RegisterFile) : Prop :=
  ∀ c : Cell, c.1 ∈ slots → file'.peek c = file.peek c

variable {slots : List (Fin 4)} {file file' : RegisterFile} {bank : Bank}

theorem AgreeIn.get (h : AgreeIn slots file file') (hbank : bank.slot ∈ slots) (r : Reg) :
    file'.get bank r = file.get bank r :=
  h (bank.cell r) hbank

theorem AgreeIn.value (h : AgreeIn slots file file') (hbank : bank.slot ∈ slots)
    (operand : Operand) : operand.value file' bank = operand.value file bank := by
  cases operand with
  | register r => exact h.get hbank r
  | immediate value => rfl

theorem AgreeIn.set (h : AgreeIn slots file file') (bank : Bank) (r : Reg) (value : UInt8) :
    AgreeIn slots (file.set bank r value) (file'.set bank r value) := by
  intro c hc
  rw [peek_set, peek_set, h c hc]

theorem AgreeIn.clearBank (h : AgreeIn slots file file') (bank : Bank) :
    AgreeIn slots (file.clearBank bank) (file'.clearBank bank) := by
  rintro ⟨b, i⟩ hc
  by_cases hb : bank.slot = b
  · simp [peek, RegisterFile.clearBank, hb]
  · have hoff : (b, i) ∉ (List.finRange 32).map (bank.slot, ·) := by simp [hb]
    rw [agreeOff_clearBank file bank _ hoff, agreeOff_clearBank file' bank _ hoff, h _ hc]

theorem AgreeIn.assign (h : AgreeIn slots file file') (dst : Bank) {src : Bank}
    (hsrc : src.slot ∈ slots) (steps : List Assignment) :
    AgreeIn slots (file.assign dst src steps) (file'.assign dst src steps) := by
  induction steps generalizing file file' with
  | nil => exact h
  | cons step steps ih =>
    have hfirst : AgreeIn slots (file.set dst step.target (step.operand.value file src))
        (file'.set dst step.target (step.operand.value file' src)) := by
      rw [h.value hsrc]
      exact h.set dst step.target _
    exact ih hfirst

theorem AgreeIn.ripple (h : AgreeIn slots file file') (hbank : bank.slot ∈ slots) (op : DigitOp)
    (carry : Bool) (steps : List Assignment) :
    AgreeIn slots (file.ripple bank op carry steps).1 (file'.ripple bank op carry steps).1 ∧
      (file'.ripple bank op carry steps).2 = (file.ripple bank op carry steps).2 := by
  induction steps generalizing file file' carry with
  | nil => exact ⟨h, rfl⟩
  | cons step steps ih =>
    rw [ripple_cons, ripple_cons, h.get hbank, h.value hbank]
    exact ih (h.set bank step.target _) _

theorem AgreeIn.comparePairs (h : AgreeIn slots file file') (hbank : bank.slot ∈ slots)
    (pairs : List (Reg × Reg)) :
    file'.comparePairs bank pairs = file.comparePairs bank pairs := by
  have hget : ∀ r, file'.get bank r = file.get bank r := h.get hbank
  simp only [RegisterFile.comparePairs, hget]

end RegisterFile

namespace Machine

/-! ### Machines that agree but for some banks -/

def selected (m : Machine) : List (Fin 4) := [(m.bank .current).slot, (m.bank .additional).slot]

/-- Two machines agree in everything that a program can get to see, of the registers in those of
some banks. -/
structure AgreeIn (slots : List (Fin 4)) (m n : Machine) : Prop where
  control : n.control = m.control
  interrupts : n.interrupts = m.interrupts
  memory : n.memory = m.memory
  ports : n.ports = m.ports
  registers : m.registers.AgreeIn slots n.registers

/-- Two machines agree in some banks, and the selected banks are among these. -/
structure Twins (slots : List (Fin 4)) (m n : Machine) : Prop extends AgreeIn slots m n where
  selected : ∀ role, (m.bank role).slot ∈ slots

variable {slots : List (Fin 4)} {m n : Machine}

theorem twins_le : Twins slots ≤ AgreeIn slots := fun _ _ h ↦ h.toAgreeIn

theorem AgreeIn.bank (h : AgreeIn slots m n) (role : BankRole) : n.bank role = m.bank role := by
  cases role with
  | current => exact congrArg Control.currentBank h.control
  | additional => exact congrArg Control.additionalBank h.control

theorem AgreeIn.following (h : AgreeIn slots m n) : n.following = m.following := by
  rw [Machine.following, Machine.following, h.control]

theorem AgreeIn.memoryByte (h : AgreeIn slots m n) (a : UInt16) :
    n.memoryByte a = m.memoryByte a := by
  rw [Machine.memoryByte, Machine.memoryByte, h.memory]

namespace Twins

variable (h : Twins slots m n)

include h

theorem reg (r : Reg) : n.reg r = m.reg r := by
  rw [Machine.reg, Machine.reg, h.bank]
  exact h.registers.get (h.selected .current) r

theorem value (operand : Operand) :
    operand.value n.registers (m.bank .current) = operand.value m.registers (m.bank .current) :=
  h.registers.value (h.selected .current) operand

theorem windowBytes (w : Window) : n.windowBytes w = m.windowBytes w := by
  rw [Machine.windowBytes, Machine.windowBytes, funext h.reg]

theorem windowStores (w : Window) : n.windowStores w = m.windowStores w := by
  rw [Machine.windowStores, Machine.windowStores, h.windowBytes, windowAddresses, windowAddresses,
    h.control]

theorem payloadBytes (payload : Payload) : n.payloadBytes payload = m.payloadBytes payload := by
  cases payload with
  | window w => exact h.windowBytes w
  | pair high low => rw [Machine.payloadBytes, Machine.payloadBytes, h.reg, h.reg]
  | byte value => rfl

theorem with_registers {registers registers' : RegisterFile}
    (hregisters : registers.AgreeIn slots registers') :
    Twins slots { m with registers } { n with registers := registers' } :=
  { h with registers := hregisters }

/-- Control registers that are changed in the same way are the same again. -/
theorem with_control (change : Control → Control)
    (hcurrent : (change m.control).currentBank = m.control.currentBank)
    (hadditional : (change m.control).additionalBank = m.control.additionalBank) :
    Twins slots { m with control := change m.control } { n with control := change n.control } where
  control := congrArg change h.control
  interrupts := h.interrupts
  memory := h.memory
  ports := h.ports
  registers := h.registers
  selected role := by
    cases role with
    | current =>
      have hslot := h.selected .current
      rwa [bank, ← hcurrent] at hslot
    | additional =>
      have hslot := h.selected .additional
      rwa [bank, ← hadditional] at hslot

theorem setReg (r : Reg) (value : UInt8) : Twins slots (m.setReg r value) (n.setReg r value) := by
  rw [Machine.setReg, Machine.setReg, h.bank]
  exact h.with_registers (h.registers.set _ r value)

theorem clearCurrentBank : Twins slots m.clearCurrentBank n.clearCurrentBank := by
  rw [Machine.clearCurrentBank, Machine.clearCurrentBank, h.bank]
  exact h.with_registers (h.registers.clearBank _)

theorem setSp (sp : UInt16) : Twins slots (m.setSp sp) (n.setSp sp) :=
  h.with_control (fun control ↦ { control with sp }) rfl rfl

theorem advance (bytes : ℕ) : Twins slots (m.advance bytes) (n.advance bytes) :=
  h.with_control (fun control ↦ { control with sa := control.sa + UInt16.ofNat bytes }) rfl rfl

theorem fillWindow (w : Window) (digits : List UInt8) :
    Twins slots (m.fillWindow w digits) (n.fillWindow w digits) := by
  rw [fillWindow_eq, fillWindow_eq, h.bank]
  exact h.with_registers (h.registers.assign _ (h.selected .current) _)

end Twins

/-- The completion of an instruction says nothing about banks. -/
theorem AgreeIn.complete (h : AgreeIn slots m n) (completion : Completion) :
    AgreeIn slots (m.complete completion) (n.complete completion) where
  control := by rw [Machine.complete, Machine.complete, h.control]
  interrupts := h.interrupts
  memory := h.memory
  ports := h.ports
  registers := h.registers

/-- The bank that is chosen need not be one in which the machines agree. -/
theorem Twins.setBank (h : Twins slots m n) (role : BankRole) (bank : Bank) :
    AgreeIn slots (m.setBank role bank) (n.setBank role bank) := by
  cases role with
  | current =>
    have hcontrol := congrArg (fun control ↦ { control with currentBank := bank }) h.control
    exact { h with control := hcontrol }
  | additional =>
    have hcontrol := congrArg (fun control ↦ { control with additionalBank := bank }) h.control
    exact { h with control := hcontrol }

end Machine

/-! ## Unselected banks are out of reach -/

namespace Machine

open Faulting (Relates)

variable {α : Type} {slots : List (Fin 4)} {m n : Machine}

/-! ### Accesses to the buses -/

theorem relates_onMemory (use : Faulting Bus α) :
    Relates (Twins slots) (Twins slots) (onMemory use) := by
  intro m n h
  rw [Faulting.answer, Faulting.answer, onMemory_apply, onMemory_apply, h.memory]
  cases use m.memory <;> exact ⟨rfl, { h with memory := rfl }⟩

theorem relates_onPorts (use : Faulting Bus α) :
    Relates (Twins slots) (Twins slots) (onPorts use) := by
  intro m n h
  rw [Faulting.answer, Faulting.answer, onPorts_apply, onPorts_apply, h.ports]
  cases use m.ports <;> exact ⟨rfl, { h with ports := rfl }⟩

/-! ### Operations -/

theorem relates_proceed {R : Machine → Machine → Prop} (hR : R ≤ AgreeIn slots)
    (flags : FlagUpdate) : Relates R R (proceed flags) :=
  Faulting.relates_view fun m n h ↦ by rw [(hR m n h).following]

theorem relates_compute {change : Machine → RegisterFile × FlagUpdate}
    (hregisters : ∀ m n, Twins slots m n → (change m).1.AgreeIn slots (change n).1)
    (hflags : ∀ m n, Twins slots m n → (change n).2 = (change m).2) :
    Relates (Twins slots) (Twins slots) (compute change) := by
  intro m n h
  have hcompletion : Completion.mk (change n).2 n.following = ⟨(change m).2, m.following⟩ := by
    rw [hflags m n h, h.following]
  exact ⟨congrArg Except.ok hcompletion, h.with_registers (hregisters m n h)⟩

theorem relates_goTo {target : Machine → UInt16}
    (htarget : ∀ m n, Twins slots m n → target n = target m) :
    Relates (Twins slots) (Twins slots) (goTo target) :=
  Faulting.relates_view fun m n h ↦ congrArg (Completion.mk .keep) (htarget m n h)

theorem relates_push (word : UInt16) : Relates (Twins slots) (Twins slots) (push word) := by
  have hsp : ∀ m n, Twins slots m n → n.control.sp - 2 = m.control.sp - 2 :=
    fun m n h ↦ by rw [h.control]
  refine (Faulting.relates_view hsp).andThen fun sp ↦ ?_
  exact (Faulting.relates_update fun m n h ↦ h.setSp sp).andThen fun _ ↦ relates_onMemory _

theorem relates_pop : Relates (Twins slots) (Twins slots) pop := by
  have htop : ∀ m n, Twins slots m n → n.topWord = m.topWord := fun m n h ↦ by
    rw [topWord, topWord, h.control, h.memoryByte, h.memoryByte]
  have hraise : ∀ m n, Twins slots m n →
      Twins slots (m.setSp (m.control.sp + 2)) (n.setSp (n.control.sp + 2)) := fun m n h ↦ by
    rw [h.control]
    exact h.setSp _
  refine (Faulting.relates_ask htop).andThen fun word ↦ ?_
  exact (Faulting.relates_update hraise).andThen fun _ ↦ Faulting.relates_pure word

theorem relates_stream (count : ℕ) : Relates (Twins slots) (Twins slots) (stream count) := by
  induction count with
  | zero => exact Faulting.relates_pure ()
  | succ count ih =>
    have hbyte : ∀ m n, Twins slots m n → n.memoryByte n.control.sa = m.memoryByte m.control.sa :=
      fun m n h ↦ by rw [h.memoryByte, h.control]
    refine (Faulting.relates_ask hbyte).andThen fun byte ↦ (relates_onPorts _).andThen fun _ ↦ ?_
    exact (Faulting.relates_update fun m n h ↦ h.advance 1).andThen fun _ ↦ ih

theorem relates_call (target resume : UInt16) :
    Relates (Twins slots) (Twins slots) (call target resume) := by
  rw [call]
  split
  · exact (relates_stream _).andThen fun _ ↦ Faulting.relates_pure _
  · refine (Faulting.relates_update fun m n h ↦ h.clearCurrentBank).andThen fun _ ↦ ?_
    exact Faulting.relates_pure _
  · exact (relates_push resume).andThen fun _ ↦ Faulting.relates_pure _

theorem relates_ret : Relates (Twins slots) (Twins slots) ret :=
  relates_pop.andThen fun _ ↦ Faulting.relates_pure _

theorem relates_leaveService : Relates (Twins slots) (Twins slots) leaveService := by
  intro m n h
  have hfinish : n.interrupts.finish = m.interrupts.finish := by rw [h.interrupts]
  exact ⟨congrArg Except.ok (congrArg Prod.fst hfinish),
    { h with interrupts := congrArg Prod.snd hfinish }⟩

theorem relates_halt : Relates (Twins slots) (Twins slots) halt := by
  refine relates_leaveService.andThen fun servicing ↦ ?_
  cases servicing with
  | true => exact relates_ret
  | false => exact relates_proceed twins_le .keep

theorem relates_advancePast (w : Window) (advance : Bool) :
    Relates (Twins slots) (Twins slots) (advancePast w advance) := by
  refine Faulting.relates_update fun m n h ↦ ?_
  cases advance with
  | true => exact h.advance _
  | false => exact h

theorem relates_storeWindow (w : Window) (advance : Bool) :
    Relates (Twins slots) (Twins slots) (storeWindow w advance) := by
  refine (Faulting.relates_view fun _ _ h ↦ h.windowStores w).andThen fun stores ↦ ?_
  exact (relates_onMemory _).andThen fun _ ↦ relates_advancePast w advance

theorem relates_loadWindow (w : Window) (advance : Bool) :
    Relates (Twins slots) (Twins slots) (loadWindow w advance) := by
  have hbytes : ∀ m n, Twins slots m n →
      (n.windowAddresses w).mapM n.memoryByte = (m.windowAddresses w).mapM m.memoryByte :=
    fun m n h ↦ by rw [windowAddresses, windowAddresses, h.control, funext h.memoryByte]
  refine (Faulting.relates_ask hbytes).andThen fun bytes ↦ ?_
  refine (Faulting.relates_update fun _ _ h ↦ h.fillWindow w _).andThen fun _ ↦ ?_
  exact relates_advancePast w advance

theorem relates_send (payload : Payload) : Relates (Twins slots) (Twins slots) (send payload) :=
  (Faulting.relates_view fun _ _ h ↦ h.payloadBytes payload).andThen fun _ ↦ relates_onPorts _

theorem relates_pointDisplay (a : UInt16) :
    Relates (Twins slots) (Twins slots) (pointDisplay a) := by
  refine (Faulting.relates_update fun m n h ↦ ?_).andThen fun _ ↦ relates_onPorts _
  exact h.with_control (fun control ↦ { control with la := a }) rfl rfl

theorem relates_receive (high low : Reg) :
    Relates (Twins slots) (Twins slots) (receive high low) := by
  have hbyte : ∀ m n, Twins slots m n → n.ports.read dataPort = m.ports.read dataPort :=
    fun m n h ↦ by rw [h.ports]
  refine (Faulting.relates_ask hbyte).andThen fun byte ↦ ?_
  exact Faulting.relates_update fun _ _ h ↦ (h.setReg high _).setReg low _

/-- The one operation after which the selected banks may be others. -/
theorem relates_selectBank (role : BankRole) (bank : Bank) :
    Relates (Twins slots) (AgreeIn slots) (perform (.selectBank role bank)) :=
  (Faulting.relates_update fun _ _ h ↦ h.setBank role bank).bind
    (fun _ ↦ relates_proceed le_rfl .keep) le_rfl

theorem relates_perform_of_ne {op : Operation} (hop : ∀ role bank, op ≠ .selectBank role bank) :
    Relates (Twins slots) (Twins slots) (perform op) := by
  -- what an operation changes is computed from questions that both machines answer alike
  have hproceed : ∀ u : Unit, Relates (Twins slots) (Twins slots) proceed :=
    fun _ ↦ relates_proceed twins_le .keep
  cases op with
  | idle => exact hproceed ()
  | combine op step =>
    rw [perform]
    refine relates_compute (fun m n h ↦ ?_) fun m n h ↦ ?_
    · simp only [combined, h.reg, h.bank, h.value]
      exact h.registers.set _ _ _
    · simp only [combined, h.reg, h.bank, h.value]
  | ripple op carry steps =>
    have hripple := fun m n (h : Twins slots m n) ↦
      h.registers.ripple (h.selected .current) op carry steps
    rw [perform]
    refine relates_compute (fun m n h ↦ ?_) fun m n h ↦ ?_
    · rw [h.bank]
      exact (hripple m n h).1
    · rw [h.bank]
      exact congrArg FlagUpdate.carry (hripple m n h).2
  | compare r operand =>
    rw [perform]
    refine relates_compute (fun m n h ↦ h.registers) fun m n h ↦ ?_
    simp only [compared, h.reg, h.bank, h.value]
  | comparePairs pairs =>
    rw [perform]
    refine relates_compute (fun m n h ↦ h.registers) fun m n h ↦ ?_
    rw [h.bank]
    exact h.registers.comparePairs (h.selected .current) pairs
  | bitwise op r value =>
    rw [perform]
    refine relates_compute (fun m n h ↦ ?_) fun m n h ↦ rfl
    rw [h.bank, h.reg]
    exact h.registers.set _ _ _
  | assign dst src steps =>
    rw [perform]
    refine relates_compute (fun m n h ↦ ?_) fun m n h ↦ rfl
    rw [h.bank, h.bank]
    exact h.registers.assign _ (h.selected src) steps
  | selectBank role bank => exact absurd rfl (hop role bank)
  | branch condition r words =>
    refine relates_goTo fun m n h ↦ ?_
    rw [h.reg, wordsAway, wordsAway, h.following]
  | branchBy r =>
    refine relates_goTo fun m n h ↦ ?_
    rw [h.reg, wordsAway, wordsAway, h.following]
  | jump target => exact relates_goTo fun m n h ↦ rfl
  | jumpIf flag value target =>
    refine relates_goTo fun m n h ↦ ?_
    rw [h.control, h.following]
  | call target =>
    exact (Faulting.relates_view fun m n h ↦ h.following).andThen fun resume ↦
      relates_call target resume
  | ret => exact relates_ret
  | halt => exact relates_halt
  | store w advance => exact (relates_storeWindow w advance).andThen hproceed
  | load w advance => exact (relates_loadWindow w advance).andThen hproceed
  | send payload => exact (relates_send payload).andThen hproceed
  | pointMemory a =>
    refine (Faulting.relates_update fun m n h ↦ ?_).andThen hproceed
    exact h.with_control (fun control ↦ { control with sa := a }) rfl rfl
  | pointDisplay a => exact (relates_pointDisplay a).andThen hproceed
  | receive high low => exact (relates_receive high low).andThen hproceed

theorem relates_perform (op : Operation) :
    Relates (Twins slots) (AgreeIn slots) (perform op) := by
  by_cases hop : ∃ role bank, op = .selectBank role bank
  · obtain ⟨role, bank, rfl⟩ := hop
    exact relates_selectBank role bank
  · exact (relates_perform_of_ne fun role bank e ↦ hop ⟨role, bank, e⟩).mono twins_le

/-! ### Steps -/

theorem relates_enterService (source : InterruptSource) :
    Relates (Twins slots) (AgreeIn slots) (enterService source) := by
  have hacknowledge : ∀ m n, Twins slots m n →
      Twins slots (m.acknowledge source) (n.acknowledge source) := fun m n h ↦
    { h with interrupts := congrArg (·.enter source) h.interrupts }
  have hpc : ∀ m n, Twins slots m n → n.control.pc = m.control.pc := fun m n h ↦ by rw [h.control]
  refine (Faulting.relates_update hacknowledge).bind (fun _ ↦ ?_) twins_le
  refine (Faulting.relates_view hpc).bind (fun resume ↦ ?_) twins_le
  refine (relates_call source.routine resume).bind (fun completion ↦ ?_) twins_le
  exact Faulting.relates_update fun _ _ h ↦ h.complete completion

theorem relates_executeNext : Relates (Twins slots) (AgreeIn slots) executeNext := by
  have hinst : ∀ m n, Twins slots m n → n.nextInstruction = m.nextInstruction := fun m n h ↦ by
    rw [nextInstruction, nextInstruction, fetch, fetch, h.control, h.memoryByte, h.memoryByte]
  refine (Faulting.relates_ask hinst).bind (fun inst ↦ ?_) twins_le
  refine (relates_perform inst.operation).bind (fun completion ↦ ?_) le_rfl
  exact Faulting.relates_update fun _ _ h ↦ h.complete completion

theorem relates_step : Relates (Twins slots) (AgreeIn slots) step := by
  have hnext : ∀ m n, Twins slots m n → n.interrupts.next? = m.interrupts.next? :=
    fun m n h ↦ by rw [h.interrupts]
  refine (Faulting.relates_view hnext).bind (fun next ↦ ?_) twins_le
  cases next with
  | some source => exact (relates_enterService source).bind (fun _ ↦ Faulting.relates_pure _) le_rfl
  | none => exact relates_executeNext.bind (fun _ ↦ Faulting.relates_pure _) le_rfl

/-! ### The banks that are not selected -/

theorem mem_selected (m : Machine) (role : BankRole) : (m.bank role).slot ∈ m.selected := by
  cases role with
  | current => exact List.mem_cons_self
  | additional => exact List.mem_cons_of_mem _ List.mem_cons_self

/-- An operation writes in selected banks. -/
theorem selected_of_mem_cells {op : Operation} {c : Cell} (h : c ∈ op.cells m) :
    c.1 ∈ m.selected := by
  have hmap : ∀ (role : BankRole) (steps : List Assignment),
      c ∈ steps.map (fun step ↦ (m.bank role).cell step.target) → c.1 ∈ m.selected := by
    intro role steps hc
    obtain ⟨step, -, rfl⟩ := List.mem_map.mp hc
    exact m.mem_selected role
  cases op with
  | combine op step => exact hmap .current [step] h
  | ripple op carry steps => exact hmap .current steps h
  | assign dst src steps => exact hmap dst steps h
  | bitwise op r value =>
    rw [List.mem_singleton.mp h]
    exact m.mem_selected .current
  | receive high low =>
    rw [Operation.cells, List.mem_cons, List.mem_singleton] at h
    rcases h with rfl | rfl <;> exact m.mem_selected .current
  | load w advance =>
    obtain ⟨r, -, rfl⟩ := List.mem_map.mp h
    exact m.mem_selected .current
  | call target =>
    rw [Operation.cells] at h
    split at h
    · obtain ⟨i, -, rfl⟩ := List.mem_map.mp h
      exact m.mem_selected .current
    · cases h
  | _ => cases h

/-- A step leaves the banks alone that are not selected, whether it completes or fails. -/
theorem peek_stepped (m : Machine) {c : Cell} (hc : c.1 ∉ m.selected) :
    m.stepped.registers.peek c = m.registers.peek c := by
  cases hstep : step m with
  | ok length m' =>
    rw [stepped_of_ok hstep]
    obtain ⟨-, ⟨source, -, henter⟩ | ⟨inst, completion, t, -, -, hperform, rfl⟩⟩ :=
      step_ok_cases hstep
    · obtain ⟨memory, -, rfl⟩ := exists_of_enterService_ok henter
      rfl
    · exact (perform_ok hperform).registers c fun hmem ↦ hc (selected_of_mem_cells hmem)
  | error f m' =>
    rw [stepped_of_error hstep, (registers_pc_of_step_error hstep).1]

/-- **Unselected banks do not interfere.** Two machines that differ in nothing but banks that are
not selected take the same step, to the same result, and agree afterwards as they did before.
Neither has changed a bank that was not selected. -/
theorem step_isolated (h : AgreeIn m.selected m n) :
    Faulting.answer step n = Faulting.answer step m ∧ AgreeIn m.selected m.stepped n.stepped ∧
      ∀ c : Cell, c.1 ∉ m.selected → m.stepped.registers.peek c = m.registers.peek c ∧
        n.stepped.registers.peek c = n.registers.peek c := by
  have hselected : n.selected = m.selected := by rw [selected, selected, h.bank, h.bank]
  obtain ⟨hanswer, hagree⟩ := relates_step m n ⟨h, m.mem_selected⟩
  refine ⟨hanswer, hagree, fun c hc ↦ ⟨m.peek_stepped hc, n.peek_stepped ?_⟩⟩
  rwa [hselected]

/-- A machine at the instruction that makes the third bank the current one. -/
private def choosing (registers : RegisterFile) : Machine where
  registers
  control := { pc := 0x1800 }
  memory := ⟨"memory",
    [.store { range := .between 0x1800 0x1801, cells := .replicate _ 0x3C },
     .store { range := .between 0x1801 0x1802, cells := .replicate _ 0x02 }]⟩
  ports := ⟨"io", []⟩

/-- A file with a nine in the third bank. -/
private def nineInThird : RegisterFile := .set .zero ⟨2⟩ ⟨5⟩ 9

theorem step_isolated_choosing :
    AgreeIn (choosing .zero).selected (choosing .zero) (choosing nineInThird) ∧
      RegisterFile.zero ≠ nineInThird ∧ (choosing .zero).stepped.bank .current = ⟨2⟩ ∧
      Faulting.answer step (choosing nineInThird) = Faulting.answer step (choosing .zero) ∧
      AgreeIn (choosing .zero).selected (choosing .zero).stepped (choosing nineInThird).stepped ∧
      ∀ c : Cell, c.1 ∉ (choosing .zero).selected →
        (choosing .zero).stepped.registers.peek c = RegisterFile.zero.peek c ∧
        (choosing nineInThird).stepped.registers.peek c = nineInThird.peek c := by
  have hagree : AgreeIn (choosing .zero).selected (choosing .zero) (choosing nineInThird) := by
    refine ⟨rfl, rfl, rfl, rfl, fun c hc ↦ ?_⟩
    change (RegisterFile.set .zero ⟨2⟩ ⟨5⟩ 9).peek c = RegisterFile.zero.peek c
    rw [RegisterFile.peek_set, if_neg]
    rintro rfl
    revert hc
    decide
  exact ⟨hagree, by decide, by decide, step_isolated hagree⟩

end Machine

end CalcWatch
