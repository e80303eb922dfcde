import CalcWatch.Proofs.Runs.Stimuli
import Mathlib.Algebra.Group.Nat.Even
import Mathlib.Data.Nat.Bitwise
import Mathlib.Tactic.IntervalCases

/-!
# Where execution goes on

The address at which execution goes on is computed in sixteen bits from fields of the word, from
registers, flags and the stack. It is told here in numbers, and from that it follows that a program
stays at even addresses.

## The fields of jumps as numbers

A jump has its target, its offset or its condition in some bits of the word. Here each of these
fields is told as a number, by division and remainder: a field of `n` bits is a remainder modulo
`2 ^ n`, and read as two's complement it is the balanced one, `Int.bmod`.

## Destinations

After an instruction execution goes on with the following one, a number of words away from it, at
an address in the word, or at the address on top of the stack. Which of these it is, is told here
twice: for an operation, whose operands are resolved, and for an instruction, by the bits of its
word and by what the registers and flags hold beforehand. The two agree, form by form, and an
operation that completes goes on where it is told to.

## Even addresses

Instructions take two bytes, offsets are counted in words, and so are the targets of jumps and
calls. What can lead to an odd address is a return alone, which goes where the bytes on the stack
say. So a program that begins at an even address and does not return stays at even addresses,
whatever interrupts and faults there are on the way.
-/

namespace CalcWatch

/-! ## The fields of jumps as numbers -/

/-! ### Two's complement -/

/-- The low bits of a byte are read as two's complement: they are shifted to the top of the byte and
back again, so that the sign comes along. -/
theorem toInt_signExtend (value : UInt8) {bits : ℕ} (hpos : 0 < bits) (hle : bits ≤ 8) :
    (signExtend value bits).toInt = Int.bmod value.toNat (2 ^ bits) := by
  have hamount : ∀ k < 8, ((UInt8.ofNat k).toInt8.toBitVec.smod 8).toNat = k ∧
      ((UInt8.ofNat k).toBitVec % 8).toNat = k := by decide
  obtain ⟨hright, hleft⟩ := hamount (8 - bits) (by omega)
  have hbits : (signExtend value bits).toBitVec
      = (value.toBitVec <<< (8 - bits)).sshiftRight (8 - bits) := by
    rw [signExtend, Int8.toBitVec_shiftRight, BitVec.sshiftRight', hright, UInt8.toBitVec_toInt8,
      UInt8.toBitVec_shiftLeft, BitVec.shiftLeft_eq', hleft]
  have hshifts : (signExtend value bits).toInt
      = Int.bmod (value.toNat * 2 ^ (8 - bits) : ℕ) (2 ^ 8) / (2 ^ (8 - bits) : ℕ) := by
    rw [← Int8.toInt_toBitVec, hbits, BitVec.toInt_sshiftRight, Int.shiftRight_eq_div_pow,
      BitVec.toInt_shiftLeft, Nat.shiftLeft_eq]
    rfl
  have hlt := value.toNat_lt
  rw [hshifts]
  interval_cases bits <;> simp only [Int.bmod] <;> omega

/-! ### Fields of a word -/

theorem toNat_and_two_pow_sub_one (word : UInt16) {mask : UInt16} (n : ℕ)
    (hmask : mask.toNat = 2 ^ n - 1) : (word &&& mask).toNat = word.toNat % 2 ^ n := by
  rw [UInt16.toNat_and, hmask, Nat.and_two_pow_sub_one_eq_mod]

namespace Instruction

variable (inst : Instruction)

theorem toNat_target12 : inst.target12.toNat = 2 * (inst.word.toNat % 4096) := by
  rw [target12, UInt16.toNat_shiftLeft, toNat_and_two_pow_sub_one _ 12 rfl, Nat.shiftLeft_eq]
  change inst.word.toNat % 4096 * 2 % 2 ^ 16 = _
  omega

theorem toNat_target10 : inst.target10.toNat = 0x1800 + 2 * (inst.word.toNat % 1024) := by
  rw [target10, UInt16.toNat_add, UInt16.toNat_shiftLeft, toNat_and_two_pow_sub_one _ 10 rfl,
    Nat.shiftLeft_eq]
  change (0x1800 + inst.word.toNat % 1024 * 2 % 2 ^ 16) % 2 ^ 16 = _
  omega

theorem toInt_offset5 : inst.offset5.toInt = Int.bmod inst.word.toNat 32 := by
  have hlow : (inst.word.toUInt8 &&& 0x1F).toNat = inst.word.toNat % 32 := by
    have hmask := Nat.and_two_pow_sub_one_eq_mod (inst.word.toNat % 2 ^ 8) 5
    rw [UInt8.toNat_and, UInt16.toNat_toUInt8]
    change inst.word.toNat % 2 ^ 8 &&& 2 ^ 5 - 1 = _
    omega
  rw [offset5, toInt_signExtend _ (by decide) (by decide), hlow,
    Int.natCast_emod]
  exact Int.emod_bmod _ 32

theorem toNat_bitIndex : inst.bitIndex.toNat = inst.word.toNat / 1024 % 4 := by
  rw [bitIndex, UInt16.toNat_toUInt8, toNat_and_two_pow_sub_one _ 2 rfl, UInt16.toNat_shiftRight,
    Nat.shiftRight_eq_div_pow]
  change inst.word.toNat / 1024 % 4 % 256 = _
  omega

theorem jumpsOnNonzero_eq_testBit : inst.jumpsOnNonzero = inst.word.toNat.testBit 10 := by
  have hbit := Nat.and_two_pow inst.word.toNat 10
  rw [jumpsOnNonzero, Bool.eq_iff_iff, bne_iff_ne, Ne, ← UInt16.toNat_inj, UInt16.toNat_and]
  change ¬inst.word.toNat &&& 2 ^ 10 = 0 ↔ _
  rw [hbit]
  cases inst.word.toNat.testBit 10 <;> simp

end Instruction

/-! ### Conditions -/

theorem Condition.holds_full_iff (value : UInt8) : full.holds value = true ↔ value.toNat = 15 := by
  rw [holds, beq_iff_eq, ← UInt8.toNat_inj]
  rfl

theorem Condition.holds_zero_iff (value : UInt8) : zero.holds value = true ↔ value.toNat = 0 := by
  rw [holds, beq_iff_eq, ← UInt8.toNat_inj]
  rfl

theorem Condition.holds_nonzero_iff (value : UInt8) :
    nonzero.holds value = true ↔ value.toNat ≠ 0 := by
  rw [holds, bne_iff_ne, Ne, ← UInt8.toNat_inj]
  rfl

theorem Condition.holds_bit (value : UInt8) {number : UInt8} (h : number.toNat < 8) :
    (bit number).holds value = value.toNat.testBit number.toNat := by
  have hmask : (1 <<< number).toNat = 2 ^ number.toNat := by
    rw [UInt8.toNat_shiftLeft, Nat.mod_eq_of_lt h, Nat.shiftLeft_eq]
    change 1 * 2 ^ number.toNat % 2 ^ 8 = _
    rw [Nat.one_mul, Nat.mod_eq_of_lt (Nat.pow_lt_pow_right (by decide) h)]
  rw [holds, Bool.eq_iff_iff, bne_iff_ne, Ne, ← UInt8.toNat_inj, UInt8.toNat_and, hmask,
    Nat.and_two_pow]
  cases value.toNat.testBit number.toNat <;> simp

/-! ### Intercepted calls -/

/-- The addresses of the routines that the machine carries out itself: every second address of the
streaming block, and the routine that clears a bank. -/
def Intercepted (a : ℕ) : Prop := 0x178C ≤ a ∧ a < 0x17A0 ∧ a % 2 = 0 ∨ a = 0x11E4

instance : DecidablePred Intercepted := fun _ ↦ inferInstanceAs (Decidable (_ ∨ _))

theorem Routine.ofTarget_eq_stored_iff (target : UInt16) :
    ofTarget target = .stored ↔ ¬Intercepted target.toNat := by
  have hstream : (streamStart ≤ target ∧ target < streamEnd ∧ target % 2 = 0) ↔
      0x178C ≤ target.toNat ∧ target.toNat < 0x17A0 ∧ target.toNat % 2 = 0 := by
    rw [UInt16.le_iff_toNat_le, UInt16.lt_iff_toNat_lt, ← UInt16.toNat_inj, UInt16.toNat_mod]
    rfl
  have hclear : target = clearBankAddress ↔ target.toNat = 0x11E4 := UInt16.toNat_inj.symm
  rw [ofTarget, Intercepted, ← hstream, ← hclear]
  split_ifs <;> simp_all

/-! ## Destinations -/

section

open Machine (topWord)

/-! ### Destinations -/

/-- Where execution goes on after an instruction. -/
inductive Destination where
  /-- So many words away from the following instruction. -/
  | away (words : ℤ)
  /-- At an address. -/
  | address (a : ℕ)
  /-- At the address on top of the stack, the low byte of which comes first. -/
  | popped
deriving DecidableEq

namespace Destination

/-- Whether `p` is the address at which execution goes on after an instruction of `m`. -/
def Reaches (m : Machine) (p : UInt16) : Destination → Prop
  | away words => (p.toNat : ℤ) = (m.control.pc.toNat + 2 + 2 * words) % 2 ^ 16
  | address a => p.toNat = a
  | popped => ∃ low high, m.memoryByte m.control.sp = .ok low ∧
      m.memoryByte (m.control.sp + 1) = .ok high ∧ p.toNat = low.toNat + 256 * high.toNat

variable (m : Machine)

theorem Reaches.following : (away 0).Reaches m m.following := by
  change (((m.control.pc.toNat + 2) % 2 ^ 16 : ℕ) : ℤ) = _
  omega

/-- Offsets are doubled in sixteen bits and added to the following address in sixteen bits. -/
theorem Reaches.wordsAway (words : Int8) : (away words.toInt).Reaches m (m.wordsAway words) := by
  have hbytes : ((words.toInt16 * 2).toUInt16.toNat : ℤ) = 2 * words.toInt % 2 ^ 16 := by
    rw [Machine.toNat_toUInt16, Int16.toInt_mul, Int8.toInt_toInt16, Int.mul_comm 2]
    exact Int.bmod_emod
  have hfollowing := Reaches.following m
  change (m.following.toNat : ℤ) = _ at hfollowing
  change (((m.following.toNat + (words.toInt16 * 2).toUInt16.toNat) % 2 ^ 16 : ℕ) : ℤ) = _
  omega

/-- A word on top of the stack is read from there, the low byte first. -/
theorem Reaches.of_topWord {m : Machine} {p : UInt16} (h : m.topWord = .ok p) :
    popped.Reaches m p := by
  rw [topWord] at h
  cases hlow : m.memoryByte m.control.sp with
  | error f =>
    rw [hlow] at h
    cases h
  | ok low =>
    cases hhigh : m.memoryByte (m.control.sp + 1) with
    | error f =>
      rw [hlow, hhigh] at h
      cases h
    | ok high =>
      rw [hlow, hhigh] at h
      cases h
      exact ⟨low, high, hlow, hhigh, (Machine.toNat_joined high low).trans (Nat.add_comm _ _)⟩

end Destination

/-! ### Where operations go on -/

namespace Operation

/-- Where execution goes on after an operation. -/
def goesOn (m : Machine) : Operation → Destination
  | branch condition r words => if condition.holds (m.reg r) then .away words.toInt else .away 0
  | branchBy r => .away (signExtend (m.reg r) 4).toInt
  | call target => if Routine.ofTarget target = .stored then .address target.toNat else .away 0
  | jump target => .address target.toNat
  | jumpIf flag value target =>
    if m.control.flag flag = value then .address target.toNat else .away 0
  | ret => .popped
  | halt => if m.interrupts.servicing then .popped else .away 0
  | idle | combine .. | ripple .. | compare .. | comparePairs _ | bitwise .. | assign ..
  | selectBank .. | store .. | load .. | send _ | pointMemory _ | pointDisplay _ | receive .. =>
    .away 0

theorem pc_control (op : Operation) (m : Machine) : (op.control m).pc = m.control.pc := by
  cases op with
  | selectBank role bank => cases role <;> rfl
  | _ => rfl

end Operation

namespace Machine

variable {m m' : Machine} {completion : Completion}

theorem nextPc_of_proceed {α : Type} {work : Faulting Machine α}
    (h : (work >>= fun _ ↦ proceed) m = .ok completion m') : completion.nextPc = m'.following := by
  obtain ⟨_, t, -, hproceed⟩ := Faulting.exists_of_bind_ok h
  cases hproceed
  rfl

theorem reaches_of_call_ok {target : UInt16} (h : call target m.following m = .ok completion m') :
    ((Operation.call target).goesOn m).Reaches m completion.nextPc := by
  rw [call] at h
  cases hroutine : Routine.ofTarget target with
  | stream count =>
    rw [hroutine] at h
    obtain ⟨_, t, -, hrest⟩ := Faulting.exists_of_bind_ok h
    cases hrest
    rw [Operation.goesOn, hroutine, if_neg Routine.noConfusion]
    exact .following m
  | clearBank =>
    rw [hroutine] at h
    cases h
    rw [Operation.goesOn, hroutine, if_neg Routine.noConfusion]
    exact .following m
  | stored =>
    rw [hroutine] at h
    obtain ⟨_, t, -, hrest⟩ := Faulting.exists_of_bind_ok h
    cases hrest
    rw [Operation.goesOn, if_pos hroutine]
    rfl

theorem reaches_of_ret_ok (h : ret m = .ok completion m') :
    Destination.popped.Reaches m completion.nextPc := by
  obtain ⟨target, t, hpop, hrest⟩ := Faulting.exists_of_bind_ok h
  cases hrest
  exact .of_topWord (eq_of_pop_ok hpop).1

theorem reaches_of_perform_ok {op : Operation} (h : perform op m = .ok completion m') :
    (op.goesOn m).Reaches m completion.nextPc := by
  have hproceed : op.goesOn m = .away 0 → completion.nextPc = m'.following →
      (op.goesOn m).Reaches m completion.nextPc := by
    intro hgoesOn hnext
    have hpc : m'.control.pc = m.control.pc := by rw [(perform_ok h).eq, op.pc_control]
    have hfollowing : m'.following = m.following := by rw [following, hpc, following]
    rw [hgoesOn, hnext, hfollowing]
    exact .following m
  cases op with
  | idle | combine | ripple | compare | comparePairs | bitwise | assign =>
    cases h
    exact .following m
  | branch condition r words =>
    cases h
    rw [Operation.goesOn]
    dsimp only
    split
    · exact .wordsAway m words
    · exact .following m
  | branchBy r =>
    cases h
    exact .wordsAway m _
  | call target => exact reaches_of_call_ok h
  | jump target =>
    cases h
    rfl
  | jumpIf flag value target =>
    cases h
    rw [Operation.goesOn]
    simp only [beq_iff_eq]
    split
    · rfl
    · exact .following m
  | ret => exact reaches_of_ret_ok h
  | halt =>
    change halt m = _ at h
    cases hservicing : m.interrupts.servicing with
    | true =>
      rw [halt_of_servicing hservicing] at h
      rw [Operation.goesOn, if_pos hservicing]
      -- The end of the service leaves the stack as it is.
      have hreaches := reaches_of_ret_ok h
      exact hreaches
    | false =>
      rw [halt_of_not_servicing hservicing] at h
      cases h
      rw [Operation.goesOn, hservicing, if_neg Bool.false_ne_true]
      exact .following m
  | selectBank | store | load | send | pointMemory | pointDisplay | receive =>
    exact hproceed rfl (nextPc_of_proceed h)

end Machine

/-! ### Where instructions go on -/

namespace Instruction

/-- Where execution goes on after an instruction, form by form. -/
def goesOn (inst : Instruction) (m : Machine) : Destination :=
  let w := inst.word.toNat
  let r := (m.reg inst.d).toNat
  let offset := Int.bmod w 32
  match inst.form with
  | .cpfjr => if r = 15 then .away offset else .away 0
  | .ijmr => .away (Int.bmod r 16)
  | .cpjr => if (r ≠ 0 ↔ w.testBit 10) then .away offset else .away 0
  | .btjr => if r.testBit (w / 1024 % 4) then .away offset else .away 0
  | .call => if Intercepted (2 * (w % 4096)) then .away 0 else .address (2 * (w % 4096))
  | .jmp => .address (2 * (w % 4096))
  | .jz => if m.control.flag .zero then .address (0x1800 + 2 * (w % 1024)) else .away 0
  | .jnz => if m.control.flag .zero then .away 0 else .address (0x1800 + 2 * (w % 1024))
  | .jc => if m.control.flag .carry then .address (0x1800 + 2 * (w % 1024)) else .away 0
  | .jnc => if m.control.flag .carry then .away 0 else .address (0x1800 + 2 * (w % 1024))
  | .ret => .popped
  | .hlt => if m.interrupts.servicing then .popped else .away 0
  | _ => .away 0

variable (inst : Instruction) (m : Machine)

/-- The operation of an instruction goes on where the bits of the word say. -/
theorem goesOn_operation : inst.operation.goesOn m = inst.goesOn m := by
  have hoffset := inst.toInt_offset5
  have htarget12 := inst.toNat_target12
  have htarget10 := inst.toNat_target10
  rw [operation, goesOn]
  cases hform : inst.form with
  | cpfjr => simp only [Operation.goesOn, Condition.holds_full_iff, hoffset]
  | ijmr => simp only [Operation.goesOn, toInt_signExtend _ (by decide : 0 < 4) (by decide)]; rfl
  | cpjr =>
    simp only [Operation.goesOn, hoffset, jumpsOnNonzero_eq_testBit]
    cases inst.word.toNat.testBit 10 <;>
      simp [Condition.holds_zero_iff, Condition.holds_nonzero_iff]
  | btjr =>
    have hbit : inst.bitIndex.toNat < 8 := by
      rw [toNat_bitIndex]
      omega
    simp only [Operation.goesOn, hoffset, Condition.holds_bit _ hbit, toNat_bitIndex]
  | call => simp only [Operation.goesOn, Routine.ofTarget_eq_stored_iff, htarget12, ite_not]
  | jmp => simp only [Operation.goesOn, htarget12]
  | jz | jc => simp only [Operation.goesOn, htarget10]
  | jnz =>
    simp only [Operation.goesOn, htarget10]
    cases m.control.flag .zero <;> rfl
  | jnc =>
    simp only [Operation.goesOn, htarget10]
    cases m.control.flag .carry <;> rfl
  | _ => rfl

end Instruction

namespace Machine

variable {m m' : Machine}

/-- **Where execution goes on.** A step that enters no routine of an interrupt and completes leaves
the program counter where the instruction goes on. -/
theorem reaches_of_step_ok {length : UInt8} (hdue : m.interrupts.next? = none)
    (h : step m = .ok length m') :
    ∃ inst, m.nextInstruction = .ok inst ∧ (inst.goesOn m).Reaches m m'.control.pc := by
  obtain ⟨-, ⟨source, hsource, -⟩ | ⟨inst, completion, t, -, hinst, hperform, rfl⟩⟩ :=
    step_ok_cases h
  · rw [hdue] at hsource
    cases hsource
  · refine ⟨inst, hinst, ?_⟩
    rw [← inst.goesOn_operation]
    exact reaches_of_perform_ok hperform

end Machine

end

/-! ## Even addresses -/

namespace Instruction

variable (inst : Instruction) (m : Machine)

/-- A return goes on at the address on top of the stack, and nothing else does. -/
theorem goesOn_eq_popped_iff : inst.goesOn m = .popped ↔
    inst.form = .ret ∨ inst.form = .hlt ∧ m.interrupts.servicing = true := by
  rw [goesOn]
  cases inst.form with
  | cpfjr | cpjr | btjr | call | jz | jnz | jc | jnc | hlt =>
    dsimp only
    split <;> simp_all
  | _ => simp

theorem even_of_goesOn_eq_address {a : ℕ} (h : inst.goesOn m = .address a) : Even a := by
  rw [goesOn] at h
  cases hform : inst.form <;> rw [hform] at h <;> dsimp only at h
  case call | jz | jnz | jc | jnc =>
    split at h <;> cases h
    rw [Nat.even_iff]
    omega
  case cpfjr | cpjr | btjr | hlt => split at h <;> cases h
  case jmp =>
    cases h
    exact even_two_mul _
  all_goals cases h

variable {inst m}

/-- From an even address execution goes on at an even one, unless it returns. -/
theorem even_of_reaches {p : UInt16} (h : (inst.goesOn m).Reaches m p)
    (heven : Even m.control.pc.toNat) (hpopped : inst.goesOn m ≠ .popped) : Even p.toNat := by
  cases hgoesOn : inst.goesOn m with
  | away words =>
    rw [hgoesOn] at h
    change (p.toNat : ℤ) = (m.control.pc.toNat + 2 + 2 * words) % 2 ^ 16 at h
    rw [Nat.even_iff] at *
    omega
  | address a =>
    rw [hgoesOn] at h
    change p.toNat = a at h
    rw [h]
    exact inst.even_of_goesOn_eq_address m hgoesOn
  | popped => exact absurd hgoesOn hpopped

end Instruction

theorem InterruptSource.even_routine (source : InterruptSource) : Even source.routine.toNat := by
  rw [routine, Instruction.toNat_target12]
  exact even_two_mul _

namespace Machine

variable {m : Machine}

/-- The next step completes a return, from a call or from the service of an interrupt. -/
def Returns (m : Machine) : Prop :=
  ∃ inst length m', m.Performs inst ∧ step m = .ok length m' ∧
    (inst.form = .ret ∨ inst.form = .hlt ∧ m.interrupts.servicing = true)

theorem even_pc_stepped (hreturns : ¬m.Returns) (heven : Even m.control.pc.toNat) :
    Even m.stepped.control.pc.toNat := by
  cases hstep : step m with
  | error f m' => rwa [stepped_of_error hstep, (registers_pc_of_step_error hstep).2]
  | ok length m' =>
    rw [stepped_of_ok hstep]
    cases hdue : m.interrupts.next? with
    | some source =>
      rw [step_of_due hdue] at hstep
      obtain ⟨_, t, henter, hlength⟩ := Faulting.exists_of_bind_ok hstep
      cases hlength
      obtain ⟨memory, -, rfl⟩ := exists_of_enterService_ok henter
      exact source.even_routine
    | none =>
      obtain ⟨inst, hinst, hreaches⟩ := reaches_of_step_ok hdue hstep
      refine Instruction.even_of_reaches hreaches heven fun hpopped ↦ hreturns ?_
      exact ⟨inst, length, m', ⟨hdue, hinst⟩, hstep, (inst.goesOn_eq_popped_iff m).mp hpopped⟩

/-- **Control flow.** A step that enters no routine of an interrupt and completes leaves the program
counter where its instruction goes on. A run from an even address in which nothing returns never
leaves the even addresses. -/
theorem reaches_of_step_and_even_after (m : Machine) :
    (∀ length m', m.interrupts.next? = none → step m = .ok length m' →
      ∃ inst, m.nextInstruction = .ok inst ∧ (inst.goesOn m).Reaches m m'.control.pc) ∧
    ∀ stimuli, Even m.control.pc.toNat → m.Along (¬·.Returns) stimuli →
      ∀ before, before <+: stimuli → Even (m.after before).control.pc.toNat := by
  refine ⟨fun length m' hdue hstep ↦ reaches_of_step_ok hdue hstep,
    fun stimuli heven hrun before hbefore ↦ ?_⟩
  exact Along.invariant (I := fun n ↦ Even n.control.pc.toNat) (fun n source hn ↦ hn)
    (fun n hreturns hn ↦ even_pc_stepped hreturns hn) heven hrun hbefore

/-- A machine with one word at the end of its memory, `CPJR R0, +3`, and room for a return
address. -/
private def atTheEnd : Machine where
  control := { pc := 0xFFFE }
  memory := ⟨"memory", [.store { range := .between 0xFFFE 0x10000, cells := #v[0x88, 0x03] },
    .store { range := .between 0x1FFE 0x2000 }]⟩
  ports := ⟨"io", []⟩

/-- The jump turns round at the end of the memory, and the interrupt after it enters a routine. -/
theorem reaches_of_step_and_even_after_turning :
    atTheEnd.interrupts.next? = none ∧ atTheEnd.stepped.control.pc = 0x0006 ∧
      (∃ inst, atTheEnd.nextInstruction = .ok inst ∧
        (inst.goesOn atTheEnd).Reaches atTheEnd 0x0006) ∧
      (atTheEnd.after [.step, .raise .setButton, .step]).control.pc = 0x1810 ∧
      Even (atTheEnd.after [.step, .raise .setButton, .step]).control.pc.toNat := by
  have hdue : atTheEnd.interrupts.next? = none := rfl
  have hinst : atTheEnd.nextInstruction = .ok ⟨0x8803, .cpjr⟩ := rfl
  have hstep : step atTheEnd = .ok instructionBytes atTheEnd.stepped := rfl
  have hjumps : ¬atTheEnd.Returns := by
    rintro ⟨inst, length, m', ⟨-, hinst'⟩, -, hform⟩
    cases hinst.symm.trans hinst'
    simp at hform
  have henters : ¬(atTheEnd.stepped.raise .setButton).Returns := by
    rintro ⟨inst, length, m', ⟨hdue', -⟩, -, -⟩
    exact absurd hdue' (by decide)
  obtain ⟨hreaches, heven⟩ := reaches_of_step_and_even_after atTheEnd
  refine ⟨hdue, rfl, hreaches _ _ hdue hstep, rfl, ?_⟩
  refine heven [.step, .raise .setButton, .step] (by decide) ?_ _ (List.prefix_refl _)
  exact ⟨fun _ ↦ hjumps, nofun, fun _ ↦ henters, trivial⟩

end Machine

end CalcWatch
