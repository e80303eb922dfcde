import CalcWatch.Proofs.Arithmetic.Ripple
import CalcWatch.Proofs.Invariants.Parts
import CalcWatch.Proofs.Runs.Stimuli

/-!
# Decimal machines

A program that counts in ten and takes its digits from the registers, from small immediates and from
nowhere else never gets to see a digit above nine.

## The invariant

It is that every cell of the register file holds at most nine, and it is carried through a run with
any interrupts and faults. A step that fails leaves the registers alone. A step that completes forms
its results from digits that are there or by an operation in ten: `Operation.Decimal` is what an
operation has to fulfil, and each kind of operation then keeps the invariant for a reason of its
own. Assignments move digits, exact arithmetic in ten leaves digits of ten, and a conjunction of
bits does not exceed its operands.

## The instructions that are left out

These are the ones that count in sixteen, set bits, or fetch digits from memory or from a port, and
every one of them can leave a digit above nine. Banks, jumps, calls and interrupts need no
attention, since they change no register or clear a bank. The immediate that is loaded, added or
subtracted has to be a digit of ten itself; any other may be anything.
-/

namespace CalcWatch

/-! ## Digits of ten -/

theorem DigitOp.apply_le_nine {op : DigitOp} (hop : op.base = 10) {a b : UInt8} (ha : a ≤ 9)
    (hb : b ≤ 9) (carry : Bool) : (op.apply a b carry).1 ≤ 9 := by
  have hlt : ∀ {digit : UInt8}, digit ≤ 9 ↔ digit.toNat < op.base := by
    intro digit
    rw [hop, UInt8.le_iff_toNat_le]
    exact Nat.lt_succ_iff.symm
  exact hlt.mpr (op.apply_exact carry (hlt.mp ha) (hlt.mp hb)).1

def Operand.Decimal : Operand → Prop
  | register _ => True
  | immediate value => value ≤ 9

namespace RegisterFile

/-- Every cell holds a decimal digit. -/
def Decimal (file : RegisterFile) : Prop := ∀ c, file.peek c ≤ 9

variable {file : RegisterFile} {steps : List Assignment}

theorem Decimal.get_le (h : file.Decimal) (bank : Bank) (r : Reg) : file.get bank r ≤ 9 :=
  h (bank.cell r)

theorem Decimal.value (h : file.Decimal) {operand : Operand} (hoperand : operand.Decimal)
    (bank : Bank) : operand.value file bank ≤ 9 := by
  cases operand with
  | register r => exact h.get_le bank r
  | immediate value => exact hoperand

theorem Decimal.set (h : file.Decimal) (bank : Bank) (r : Reg) {value : UInt8}
    (hvalue : value ≤ 9) : (file.set bank r value).Decimal :=
  forall_peek_set (· ≤ 9) h bank r (UInt8.le_trans UInt8.and_le_left hvalue)

theorem Decimal.clearBank (h : file.Decimal) (bank : Bank) : (file.clearBank bank).Decimal :=
  forall_peek_clearBank (· ≤ 9) h bank UInt8.zero_le

theorem Decimal.assign (h : file.Decimal) (dst src : Bank)
    (hsteps : ∀ step ∈ steps, step.operand.Decimal) : (file.assign dst src steps).Decimal := by
  induction steps generalizing file with
  | nil => exact h
  | cons step steps ih =>
    obtain ⟨hstep, hsteps⟩ := List.forall_mem_cons.mp hsteps
    exact ih (h.set dst step.target (h.value hstep src)) hsteps

theorem Decimal.ripple (h : file.Decimal) (bank : Bank) {op : DigitOp} (hop : op.base = 10)
    (carry : Bool) (hsteps : ∀ step ∈ steps, step.operand.Decimal) :
    (file.ripple bank op carry steps).1.Decimal := by
  induction steps generalizing file carry with
  | nil => exact h
  | cons step steps ih =>
    obtain ⟨hstep, hsteps⟩ := List.forall_mem_cons.mp hsteps
    rw [ripple_cons]
    refine ih (h.set bank step.target ?_) _ hsteps
    exact DigitOp.apply_le_nine hop (h.get_le bank step.target) (h.value hstep bank) carry

end RegisterFile

/-! ## Operations and instructions of ten -/

/-- The operation forms decimal digits out of decimal digits. -/
def Operation.Decimal : Operation → Prop
  | combine op step => op.base = 10 ∧ step.operand.Decimal
  | ripple op _ steps => op.base = 10 ∧ ∀ step ∈ steps, step.operand.Decimal
  | bitwise op _ _ => op = .and
  | assign _ _ steps => ∀ step ∈ steps, step.operand.Decimal
  | load _ _ | receive _ _ => False
  | _ => True

namespace Instruction

/-- The forms that count in sixteen, set bits, or take digits from memory or from a port. -/
def wildForms : List Form :=
  [.add, .sub, .adm, .sbm, .adi, .sbi, .inc, .dec, .ori, .xori, .plam, .ldsm, .inp]

/-- The instruction counts in ten, and any digit that it brings along is decimal. -/
structure KeepsDecimals (inst : Instruction) : Prop where
  form : inst.form ∉ wildForms
  immediate : inst.form ∈ [.ldi, .adbi, .sbbi] → inst.immediate4 ≤ 9

variable {inst : Instruction}

theorem decimal_operation (h : inst.KeepsDecimals) : inst.operation.Decimal := by
  obtain ⟨word, form⟩ := inst
  obtain ⟨hform, himmediate⟩ := h
  cases form with
  | add | sub | adm | sbm | adi | sbi | inc | dec | ori | xori | plam | ldsm | inp =>
    exact absurd (by simp [wildForms]) hform
  | adb | sbb => exact ⟨rfl, trivial⟩
  | adbi | sbbi => exact ⟨rfl, himmediate (by simp)⟩
  | adbm | sbbm => exact ⟨rfl, List.forall_mem_map.mpr fun _ _ ↦ trivial⟩
  | incb | decb => exact ⟨rfl, List.forall_mem_map.mpr fun _ _ ↦ UInt8.zero_le⟩
  | ldi => exact List.forall_mem_singleton.mpr (himmediate (by simp))
  | mov | mvac | mvca => exact List.forall_mem_singleton.mpr trivial
  | movm | mvacm | mvcam => exact List.forall_mem_map.mpr fun _ _ ↦ trivial
  | rshm | lshm =>
    refine List.forall_mem_append.mpr ⟨List.forall_mem_map.mpr fun _ _ ↦ trivial, ?_⟩
    exact List.forall_mem_singleton.mpr UInt8.zero_le
  | clrm => exact List.forall_mem_map.mpr fun _ _ ↦ UInt8.zero_le
  | andi => rfl
  | _ => trivial

end Instruction

/-! ## Steps and runs -/

namespace Machine

variable {m m' : Machine}

theorem decimal_of_perform_ok {op : Operation} (hop : op.Decimal) (h : m.registers.Decimal)
    {completion : Completion} (hperform : perform op m = .ok completion m') :
    m'.registers.Decimal := by
  have hunchanged : op.cells m = [] → m'.registers.Decimal := by
    intro hcells c
    have hagree := (perform_ok hperform).registers
    rw [hcells] at hagree
    exact hagree c List.not_mem_nil ▸ h c
  cases op with
  | combine op step =>
    cases hperform
    refine h.set _ _ (DigitOp.apply_le_nine hop.1 ?_ (h.value hop.2 _) false)
    exact h.get_le _ step.target
  | ripple op carry steps =>
    cases hperform
    exact h.ripple _ hop.1 carry hop.2
  | bitwise op r value =>
    cases hperform
    rw [hop]
    exact h.set _ r (UInt8.le_trans UInt8.and_le_left (h.get_le _ r))
  | assign dst src steps =>
    cases hperform
    exact h.assign _ _ hop
  | call target =>
    cases hroutine : Routine.ofTarget target with
    | stream | stored => exact hunchanged (by simp only [Operation.cells, hroutine])
    | clearBank =>
      change call target m.following m = _ at hperform
      rw [call, hroutine] at hperform
      cases hperform
      exact h.clearBank _
  | load | receive => exact hop.elim
  | _ => exact hunchanged rfl

theorem decimal_stepped (h : m.registers.Decimal)
    (hkeeps : ∀ inst, m.Performs inst → inst.KeepsDecimals) : m.stepped.registers.Decimal := by
  cases hstep : step m with
  | ok length m' =>
    rw [stepped_of_ok hstep]
    obtain ⟨-, ⟨source, hdue, henter⟩ | ⟨inst, completion, t, hdue, hinst, hperform, rfl⟩⟩ :=
      step_ok_cases hstep
    · obtain ⟨memory, -, rfl⟩ := exists_of_enterService_ok henter
      exact h
    · have hop := Instruction.decimal_operation (hkeeps inst ⟨hdue, hinst⟩)
      have ht : t.registers.Decimal := decimal_of_perform_ok hop h hperform
      exact ht
  | error f m' =>
    rw [stepped_of_error hstep, (registers_pc_of_step_error hstep).1]
    exact h

/-- **A decimal machine stays decimal** while its program counts in ten. -/
theorem decimal_after (h : m.registers.Decimal) {stimuli before : List Stimulus}
    (hrun : m.Along (fun n ↦ ∀ inst, n.Performs inst → inst.KeepsDecimals) stimuli)
    (hbefore : before <+: stimuli) : (m.after before).registers.Decimal := by
  induction before generalizing m stimuli with
  | nil => exact h
  | cons stimulus before ih =>
    obtain ⟨rest, rfl⟩ := hbefore
    obtain ⟨hfirst, hrest⟩ := hrun
    refine ih ?_ hrest (List.prefix_append before rest)
    cases stimulus with
    | raise source => exact h
    | step => exact decimal_stepped h (hfirst rfl)

/-- A machine whose memory holds `LDI R1, 9` and `ADBI R1, 7`. -/
private def counting : Machine where
  memory := ⟨"memory", [.store
    { range := .between 0x1800 0x1804, cells := #v[0x38, 0x32, 0x44, 0x2E] }]⟩
  ports := ⟨"io", []⟩

theorem decimal_after_counting :
    (counting.after [.step, .step]).registers.Decimal ∧
      (counting.after [.step, .step]).reg ⟨1⟩ = 6 := by
  have hzero : counting.registers.Decimal := by
    intro c
    simp [RegisterFile.peek, counting, RegisterFile.zero]
  have hrun : counting.Along (fun n ↦ ∀ inst, n.Performs inst → inst.KeepsDecimals)
      [.step, .step] := by
    refine ⟨fun _ inst hperforms ↦ ?_, fun _ inst hperforms ↦ ?_, trivial⟩
    · have hinst : Except.ok ⟨0x3832, .ldi⟩ = Except.ok inst := hperforms.2
      cases hinst
      exact ⟨by decide, fun _ ↦ by decide⟩
    · have hinst : Except.ok ⟨0x442E, .adbi⟩ = Except.ok inst := hperforms.2
      cases hinst
      exact ⟨by decide, fun _ ↦ by decide⟩
  exact ⟨decimal_after hzero hrun (List.prefix_refl _), rfl⟩

end Machine

end CalcWatch
