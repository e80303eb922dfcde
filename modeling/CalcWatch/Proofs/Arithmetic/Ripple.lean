import CalcWatch.Machine
import CalcWatch.Proofs.Registers.Cells
import Mathlib.Data.Nat.Bitwise
import Mathlib.Data.Nat.Digits.Defs
import Mathlib.Tactic.LinearCombination
import Mathlib.Tactic.Ring

/-!
# Arithmetic on windows

An instruction that adds or subtracts windows goes through them digit by digit and hands a carry on.
What it computes is said here of whole numbers. There are three layers: one digit, a sequence of
digits, and the windows of an instruction.

## One digit with a carry

A digit operation counts in sixteen or in ten. On digits of its base it is exact: what it takes in
and what it hands on balance, where a carry is worth the base, and additions and subtractions differ
in a sign only. The balance is stated in the integers so that one equation serves all four
operations, and so that it can be added up along a window.

## A carry through a sequence of steps

The digits that a sequence of steps combines are read as one number in the base of the operation,
the first step least significant: `RegisterFile.number` for the targets and
`RegisterFile.operandNumber` for the operands. Each step sees the file that the steps before it have
left, and it has to be shown that this makes no difference. The condition is `Assignment.Spares`: no
step changes what a later one changes or reads. Then the sequence computes with the digits that were
there before.

The invariant of the induction is the balance: with `b` the base and `n` the number of steps,
targets before, sign times operands and first carry amount to the targets afterwards and `b ^ n`
times the last carry. Adding one step in front multiplies the balance of the others by `b` and adds
the balance of one digit, which is `DigitOp.apply_exact`.

## The windows of an instruction

A windowed instruction computes with whole numbers. The total of the numbers that its windows held
is left in the destination window, reduced to as many digits as the window has, and Carry says
whether the total had to be reduced: it was too large for the window, or it was below zero.
-/

namespace CalcWatch

/-! ## One digit with a carry -/

namespace DigitOp

def base : DigitOp → ℕ
  | add | sub => 16
  | addDecimal | subDecimal => 10

/-- The sign with which the operand and the carry enter. -/
def sign : DigitOp → ℤ
  | add | addDecimal => 1
  | sub | subDecimal => -1

theorem one_lt_base (op : DigitOp) : 1 < op.base := by
  cases op <;> decide

theorem base_le (op : DigitOp) : op.base ≤ 16 := by
  cases op <;> decide

/-! ### Low digit and carry bit of a byte -/

theorem toNat_and_low (x : UInt8) : (x &&& 0x0F).toNat = x.toNat % 16 := by
  rw [UInt8.toNat_and]
  exact Nat.and_two_pow_sub_one_eq_mod x.toNat 4

theorem toNat_carryBit (x : UInt8) : (x &&& 0x10 != 0).toNat = x.toNat / 16 % 2 := by
  have hand : (x &&& 0x10).toNat = 2 ^ 4 * (x.toNat.testBit 4).toNat := by
    rw [UInt8.toNat_and, Nat.mul_comm]
    exact Nat.and_two_pow x.toNat 4
  have hbit : (x &&& 0x10 != 0) = x.toNat.testBit 4 := by
    rw [Bool.eq_iff_iff, bne_iff_ne, Ne, ← UInt8.toNat_inj, hand]
    cases x.toNat.testBit 4 <;> decide
  rw [hbit, Nat.toNat_testBit]

/-! ### Sums and differences -/

theorem toNat_carry (carry : Bool) : carry.toUInt8.toNat = carry.toNat := by
  cases carry <;> rfl

variable {a b : UInt8}

/-- A sum of two digits and a carry stays within a byte. -/
theorem toNat_sum (carry : Bool) (ha : a.toNat < 16) (hb : b.toNat < 16) :
    (a + b + carry.toUInt8).toNat = a.toNat + b.toNat + carry.toNat := by
  have hc := carry.toNat_lt
  rw [UInt8.toNat_add, UInt8.toNat_add, toNat_carry]
  omega

/-- A difference below zero wraps round to the top of the byte. -/
theorem toNat_difference (carry : Bool) (ha : a.toNat < 16) (hb : b.toNat < 16) :
    (a - b - carry.toUInt8).toNat
      = if b.toNat + carry.toNat ≤ a.toNat then a.toNat - (b.toNat + carry.toNat)
        else 256 + a.toNat - (b.toNat + carry.toNat) := by
  have hc := carry.toNat_lt
  rw [UInt8.toNat_sub, UInt8.toNat_sub, toNat_carry]
  split <;> omega

/-! ### Exactness -/

theorem digit_eq (op : DigitOp) (carry : Bool) :
    (op.apply a b carry).1.toNat = (op.corrected (op.intermediate a b carry)).toNat % 16 :=
  toNat_and_low _

theorem carry_eq (op : DigitOp) (carry : Bool) :
    (op.apply a b carry).2.toNat = (op.corrected (op.intermediate a b carry)).toNat / 16 % 2 :=
  toNat_carryBit _

private theorem gt_nine_iff {raw : UInt8} : raw > 9 ↔ ¬raw.toNat ≤ 9 := by
  rw [gt_iff_lt, UInt8.lt_iff_toNat_lt, Nat.not_le]
  rfl

/-- The correction adds six where a sum is above nine. -/
theorem toNat_corrected_addDecimal {raw : UInt8} (h : raw.toNat < 32) :
    (addDecimal.corrected raw).toNat = if raw.toNat ≤ 9 then raw.toNat else raw.toNat + 6 := by
  rw [corrected]
  by_cases hraw : raw.toNat ≤ 9
  · rw [if_neg (gt_nine_iff.not_left.mpr hraw), if_pos hraw]
  · rw [if_pos (gt_nine_iff.mpr hraw), if_neg hraw, UInt8.toNat_add]
    change (raw.toNat + 6) % 256 = _
    omega

/-- The correction takes six off where a difference fell below zero. -/
theorem toNat_corrected_subDecimal (raw : UInt8) :
    (subDecimal.corrected raw).toNat = if raw.toNat ≤ 9 then raw.toNat else raw.toNat - 6 := by
  rw [corrected]
  by_cases hraw : raw.toNat ≤ 9
  · rw [if_neg (gt_nine_iff.not_left.mpr hraw), if_pos hraw]
  · have hbyte := raw.toNat_lt
    rw [if_pos (gt_nine_iff.mpr hraw), if_neg hraw, UInt8.toNat_sub]
    change (2 ^ 8 - 6 + raw.toNat) % 256 = _
    omega

/-- **One digit is exact.** The result is a digit of the base, and what goes in is what comes out, a
carry counting for the base. -/
theorem apply_exact (op : DigitOp) (carry : Bool) (ha : a.toNat < op.base)
    (hb : b.toNat < op.base) :
    (op.apply a b carry).1.toNat < op.base ∧
      (a.toNat + op.sign * (b.toNat + carry.toNat) : ℤ)
        = (op.apply a b carry).1.toNat + op.sign * (op.base * (op.apply a b carry).2.toNat) := by
  have ha' := ha.trans_le op.base_le
  have hb' := hb.trans_le op.base_le
  have hc := carry.toNat_lt
  have hsum := toNat_sum carry ha' hb'
  have hdiff := toNat_difference carry ha' hb'
  rw [digit_eq, carry_eq]
  cases op with
  | add =>
    simp only [intermediate, corrected, hsum, base, sign] at *
    omega
  | addDecimal =>
    simp only [intermediate, base, sign] at *
    rw [toNat_corrected_addDecimal (by omega), hsum]
    split <;> omega
  | sub =>
    simp only [intermediate, corrected, hdiff, base, sign] at *
    split <;> omega
  | subDecimal =>
    -- below zero the byte wraps round, so the correction sees a number far above nine
    simp only [intermediate, base, sign] at *
    rw [toNat_corrected_subDecimal, hdiff]
    by_cases hborrow : b.toNat + carry.toNat ≤ a.toNat
    · rw [if_pos hborrow, if_pos (by omega)]
      omega
    · rw [if_neg hborrow, if_neg (by omega)]
      omega

end DigitOp

/-! ## A carry through a sequence of steps -/

/-- The number that registers of a bank hold, the first register least significant. -/
def RegisterFile.number (file : RegisterFile) (bank : Bank) (base : ℕ) (regs : List Reg) : ℕ :=
  Nat.ofDigits base (regs.map fun r ↦ (file.get bank r).toNat)

/-- The number that the operands of steps hold. -/
def RegisterFile.operandNumber (file : RegisterFile) (bank : Bank) (base : ℕ)
    (steps : List Assignment) : ℕ :=
  Nat.ofDigits base (steps.map fun step ↦ (step.operand.value file bank).toNat)

namespace RegisterFile

variable {file file' : RegisterFile} {bank : Bank} {base : ℕ} {regs : List Reg}

theorem number_cons (file : RegisterFile) (bank : Bank) (base : ℕ) (r : Reg) (regs : List Reg) :
    file.number bank base (r :: regs)
      = (file.get bank r).toNat + base * file.number bank base regs :=
  Nat.ofDigits_cons

theorem operandNumber_cons (file : RegisterFile) (bank : Bank) (base : ℕ) (step : Assignment)
    (steps : List Assignment) :
    file.operandNumber bank base (step :: steps)
      = (step.operand.value file bank).toNat + base * file.operandNumber bank base steps :=
  Nat.ofDigits_cons

theorem number_congr (h : ∀ r ∈ regs, file'.get bank r = file.get bank r) :
    file'.number bank base regs = file.number bank base regs := by
  rw [number, number, List.map_congr_left fun r hr ↦ congrArg UInt8.toNat (h r hr)]

theorem operandNumber_congr {steps : List Assignment}
    (h : ∀ step ∈ steps, step.operand.value file' bank = step.operand.value file bank) :
    file'.operandNumber bank base steps = file.operandNumber bank base steps := by
  rw [operandNumber, operandNumber,
    List.map_congr_left fun step hstep ↦ congrArg UInt8.toNat (h step hstep)]

theorem operandNumber_zipWith (file : RegisterFile) (bank : Bank) (base : ℕ) {w other : Window}
    (h : w.length = other.length) :
    file.operandNumber bank base (w.zipWith other) = file.number bank base other.registers := by
  rw [operandNumber, number, Window.zipWith, Window.registers, h, List.map_map, List.map_map]
  rfl

theorem operandNumber_eq_zero {steps : List Assignment}
    (h : ∀ step ∈ steps, step.operand.value file bank = 0) :
    file.operandNumber bank base steps = 0 := by
  rw [operandNumber, List.map_congr_left fun step hstep ↦ congrArg UInt8.toNat (h step hstep),
    List.map_const', UInt8.toNat_zero]
  exact Nat.ofDigits_replicate_zero

theorem number_lt (hbase : 1 < base) (h : ∀ r ∈ regs, (file.get bank r).toNat < base) :
    file.number bank base regs < base ^ regs.length := by
  have hlt := Nat.ofDigits_lt_base_pow_length hbase
    (l := regs.map fun r ↦ (file.get bank r).toNat) fun d hd ↦ by
      obtain ⟨r, hr, rfl⟩ := List.mem_map.mp hd
      exact h r hr
  rwa [List.length_map] at hlt

/-- The result of a digit operation passes through a cell unchanged. -/
theorem get_set_digit (file : RegisterFile) (bank : Bank) (r : Reg) {digit : UInt8}
    (h : digit.toNat < 16) : (file.set bank r digit).get bank r = digit := by
  rw [get_set_self, ← UInt8.toNat_inj, DigitOp.toNat_and_low, Nat.mod_eq_of_lt h]

/-- **A whole sequence is exact.** The induction is on the steps; the file that the first step
leaves holds the same digits as before wherever a later step looks. -/
theorem ripple_exact (bank : Bank) (op : DigitOp) {steps : List Assignment}
    (hspare : steps.Pairwise Assignment.Spares) (file : RegisterFile) (carry : Bool)
    (htarget : ∀ step ∈ steps, (file.get bank step.target).toNat < op.base)
    (hoperand : ∀ step ∈ steps, (step.operand.value file bank).toNat < op.base) :
    (∀ step ∈ steps,
        ((file.ripple bank op carry steps).1.get bank step.target).toNat < op.base) ∧
      (file.number bank op.base (steps.map (·.target))
          + op.sign * (file.operandNumber bank op.base steps + carry.toNat) : ℤ)
        = (file.ripple bank op carry steps).1.number bank op.base (steps.map (·.target))
          + op.sign * (op.base ^ steps.length * (file.ripple bank op carry steps).2.toNat) := by
  induction steps generalizing file carry with
  | nil =>
    refine ⟨fun step hstep ↦ absurd hstep List.not_mem_nil, ?_⟩
    simp [number, operandNumber, ripple]
  | cons step steps ih =>
    obtain ⟨hfirst, hrest⟩ := List.pairwise_cons.mp hspare
    obtain ⟨hdigit, hbalance⟩ := op.apply_exact carry (htarget step List.mem_cons_self)
      (hoperand step List.mem_cons_self)
    rw [ripple_cons]
    generalize op.apply (file.get bank step.target) (step.operand.value file bank) carry = result
      at hdigit hbalance
    obtain ⟨digit, carry'⟩ := result
    have htarget' : ∀ later ∈ steps,
        (file.set bank step.target digit).get bank later.target = file.get bank later.target :=
      fun later hlater ↦ (hfirst later hlater).get_target_set file bank digit
    have hoperand' : ∀ later ∈ steps,
        later.operand.value (file.set bank step.target digit) bank
          = later.operand.value file bank :=
      fun later hlater ↦ (hfirst later hlater).value_operand_set file bank bank digit
    obtain ⟨hdigits, hsum⟩ := ih hrest (file.set bank step.target digit) carry'
      (fun later hlater ↦ by
        rw [htarget' later hlater]
        exact htarget later (List.mem_cons_of_mem _ hlater))
      (fun later hlater ↦ by
        rw [hoperand' later hlater]
        exact hoperand later (List.mem_cons_of_mem _ hlater))
    -- the later steps spare the first target, so its digit is still there at the end
    have hfresh : bank.cell step.target ∉ steps.map fun later ↦ bank.cell later.target := by
      intro hmem
      obtain ⟨later, hlater, heq⟩ := List.mem_map.mp hmem
      exact (hfirst later hlater).1 (Bank.cell_inj.mp heq).symm
    have hkept : ((file.set bank step.target digit).ripple bank op carry' steps).1.get bank
        step.target = digit := by
      rw [get_eq_peek, agreeOff_ripple bank op steps _ carry' _ hfresh, ← get_eq_peek,
        get_set_digit file bank step.target (hdigit.trans_le op.base_le)]
    refine ⟨List.forall_mem_cons.mpr ⟨?_, hdigits⟩, ?_⟩
    · rwa [hkept]
    · rw [number_congr (List.forall_mem_map.mpr htarget'), operandNumber_congr hoperand'] at hsum
      rw [List.map_cons, number_cons, number_cons, operandNumber_cons, hkept, List.length_cons]
      push_cast
      -- the balance of the rest counts base times: its first carry is the one that is handed on
      linear_combination hbalance + op.base * hsum

end RegisterFile

/-! ## The windows of an instruction -/

namespace Machine

def number (m : Machine) (base : ℕ) (regs : List Reg) : ℕ :=
  m.registers.number (m.bank .current) base regs

/-- Whether registers of the current bank hold digits of a base. -/
def HoldsDigits (m : Machine) (base : ℕ) (regs : List Reg) : Prop :=
  ∀ r ∈ regs, (m.reg r).toNat < base

instance (m : Machine) (base : ℕ) (regs : List Reg) : Decidable (m.HoldsDigits base regs) :=
  inferInstanceAs (Decidable (∀ r ∈ regs, (m.reg r).toNat < base))

/-- What exact arithmetic leaves: the total in some registers, reduced to what they hold, and the
carry. Nothing else about registers and flags has changed. -/
structure Computed (m m' : Machine) (base : ℕ) (regs : List Reg) (total : ℤ) (carry : Prop) :
    Prop where
  /-- The registers hold the total. -/
  number_eq : (m'.registers.number (m.bank .current) base regs : ℤ) = total % base ^ regs.length
  /-- They hold digits. -/
  digits : ∀ r ∈ regs, (m'.registers.get (m.bank .current) r).toNat < base
  /-- Carry is as told. -/
  carry_iff : m'.control.flag .carry = true ↔ carry
  /-- Zero stays. -/
  zero_eq : m'.control.flag .zero = m.control.flag .zero
  /-- No other register is touched. -/
  others : m.registers.AgreeOff (regs.map (m.bank .current).cell) m'.registers

/-- An equation of balance fixes the digits that are left and the carry. -/
private theorem emod_and_carry {op : DigitOp} {total left size : ℤ} {carry : Bool}
    (h : total = left + op.sign * (size * carry.toNat)) (hleft : 0 ≤ left) (hlt : left < size) :
    left = total % size ∧ (carry = true ↔ total < 0 ∨ size ≤ total) := by
  have hemod : total % size = left := by
    rw [h, show left + op.sign * (size * carry.toNat)
        = left + size * (op.sign * carry.toNat) by ring, Int.add_mul_emod_self_left]
    exact Int.emod_eq_of_lt hleft hlt
  refine ⟨hemod.symm, ?_⟩
  cases op <;> cases carry <;> simp only [DigitOp.sign, Bool.toNat_true, Bool.toNat_false] at h <;>
    simp <;> omega

theorem Computed.congr {m m' : Machine} {base : ℕ} {regs : List Reg} {total total' : ℤ}
    {carry carry' : Prop} (h : m.Computed m' base regs total carry) (htotal : total = total')
    (hcarry : carry ↔ carry') : m.Computed m' base regs total' carry' := by
  rwa [← htotal, ← propext hcarry]

theorem execute_ripple (m : Machine) {inst : Instruction} {op : DigitOp} {carry : Bool}
    {steps : List Assignment} (hop : inst.operation = .ripple op carry steps)
    (hspare : steps.Pairwise Assignment.Spares)
    (htarget : m.HoldsDigits op.base (steps.map (·.target)))
    (hoperand : ∀ step ∈ steps,
      (step.operand.value m.registers (m.bank .current)).toNat < op.base) (total : ℤ)
    (htotal : total = m.number op.base (steps.map (·.target))
      + op.sign * (m.registers.operandNumber (m.bank .current) op.base steps + carry.toNat)) :
    ∃ m', execute inst m = .ok () m' ∧
      m.Computed m' op.base (steps.map (·.target)) total
        (total < 0 ∨ (op.base ^ (steps.map (·.target)).length : ℕ) ≤ total) := by
  obtain ⟨hdigits, hbalance⟩ := m.registers.ripple_exact (m.bank .current) op hspare carry
    (List.forall_mem_map.mp htarget) hoperand
  have hoff := RegisterFile.agreeOff_ripple (m.bank .current) op steps m.registers carry
  generalize hresult : m.registers.ripple (m.bank .current) op carry steps = result
    at hdigits hbalance hoff
  obtain ⟨registers, carry'⟩ := result
  have hperform : perform inst.operation m
      = .ok ⟨.carry carry', m.following⟩ { m with registers } := by
    rw [hop, perform, compute, hresult]
    rfl
  have hlt := RegisterFile.number_lt op.one_lt_base (List.forall_mem_map.mpr hdigits)
  rw [← List.length_map (·.target)] at hbalance
  obtain ⟨hnumber, hcarry⟩ := emod_and_carry (htotal.trans hbalance) (Int.natCast_nonneg _)
    (by exact_mod_cast hlt)
  refine ⟨({ m with registers }).complete ⟨.carry carry', m.following⟩,
    Faulting.bind_of_ok hperform, ?_⟩
  constructor
  · exact hnumber
  · exact List.forall_mem_map.mpr hdigits
  · rw [Nat.cast_pow, ← hcarry]
    exact Bool.eq_iff_iff.mp (m.control.flag_setFlag_self carry')
  · exact m.control.flag_setFlag_of_ne carry' (by decide)
  · rwa [List.map_map]

/-! ### The two kinds of windowed arithmetic -/

section

variable (m : Machine) {inst : Instruction} {op : DigitOp}

/-- Arithmetic on the two windows of an instruction. -/
theorem execute_windows
    (hop : inst.operation = .ripple op false (inst.destination.zipWith inst.source))
    (hdst : m.HoldsDigits op.base inst.destination.registers)
    (hsrc : m.HoldsDigits op.base inst.source.registers) (total : ℤ)
    (htotal : total = m.number op.base inst.destination.registers
      + op.sign * m.number op.base inst.source.registers) :
    ∃ m', execute inst m = .ok () m' ∧
      m.Computed m' op.base inst.destination.registers total
        (total < 0 ∨ (op.base ^ inst.destination.registers.length : ℕ) ≤ total) := by
  have hlen : inst.destination.length = inst.source.length := rfl
  have hoperand : ∀ step ∈ inst.destination.zipWith inst.source,
      (step.operand.value m.registers (m.bank .current)).toNat < op.base := by
    intro step hstep
    obtain ⟨i, hi, rfl⟩ := List.mem_map.mp hstep
    exact hsrc _ (List.mem_map_of_mem hi)
  have hresult := m.execute_ripple hop inst.pairwise_spares_windows
    (by rwa [Instruction.map_target_zipWith]) hoperand total (by
      rw [Instruction.map_target_zipWith, htotal, RegisterFile.operandNumber_zipWith _ _ _ hlen,
        Bool.toNat_false, Nat.cast_zero, add_zero]
      rfl)
  rwa [Instruction.map_target_zipWith] at hresult

/-- Counting on the group window of an instruction: nothing is added but the carry. -/
theorem execute_group (hop : inst.operation = .ripple op true inst.groupSteps)
    (hgroup : m.HoldsDigits op.base inst.groupRegisters) (total : ℤ)
    (htotal : total = m.number op.base inst.groupRegisters + op.sign) :
    ∃ m', execute inst m = .ok () m' ∧
      m.Computed m' op.base inst.groupRegisters total
        (total < 0 ∨ (op.base ^ inst.groupRegisters.length : ℕ) ≤ total) := by
  have hzero : ∀ step ∈ inst.groupSteps,
      step.operand.value m.registers (m.bank .current) = 0 := by
    intro step hstep
    obtain ⟨r, -, rfl⟩ := List.mem_map.mp hstep
    rfl
  have hresult := m.execute_ripple hop inst.pairwise_spares_group
    (by rwa [Instruction.map_target_groupSteps])
    (fun step hstep ↦ by
      rw [hzero step hstep]
      exact Nat.zero_lt_of_lt op.one_lt_base)
    total (by
      rw [Instruction.map_target_groupSteps, htotal,
        RegisterFile.operandNumber_eq_zero hzero, Bool.toNat_true]
      simp)
  rwa [Instruction.map_target_groupSteps] at hresult

end

/-! ### The four decimal instructions -/

theorem sum_overflows_iff {a b size : ℕ} :
    ((a + b : ℤ) < 0 ∨ (size : ℤ) ≤ a + b) ↔ size ≤ a + b := by
  omega

theorem difference_overflows_iff {a b size : ℕ} (h : a < size) :
    ((a - b : ℤ) < 0 ∨ (size : ℤ) ≤ a - b) ↔ a < b := by
  omega

theorem execute_difference {m : Machine} {inst : Instruction} {op : DigitOp}
    (hop : inst.operation = .ripple op false (inst.destination.zipWith inst.source))
    (hsign : op.sign = -1) (hdst : m.HoldsDigits op.base inst.destination.registers)
    (hsrc : m.HoldsDigits op.base inst.source.registers) :
    ∃ m', execute inst m = .ok () m' ∧ m.Computed m' op.base inst.destination.registers
      (m.number op.base inst.destination.registers - m.number op.base inst.source.registers)
      (m.number op.base inst.destination.registers < m.number op.base inst.source.registers) := by
  obtain ⟨m', hexec, hcomputed⟩ := m.execute_windows hop hdst hsrc
    (m.number op.base inst.destination.registers - m.number op.base inst.source.registers)
    (by rw [hsign, neg_one_mul, ← sub_eq_add_neg])
  exact ⟨m', hexec, hcomputed.congr rfl
    (difference_overflows_iff (RegisterFile.number_lt op.one_lt_base hdst))⟩

/-- **Decimal windows compute exactly.** All totals are of the numbers held before the
instruction, however its windows lie. -/
theorem execute_decimal (m : Machine) (inst : Instruction) :
    let dst := inst.destination.registers
    let src := inst.source.registers
    let group := inst.groupRegisters
    (inst.form = .adbm → m.HoldsDigits 10 dst → m.HoldsDigits 10 src →
      ∃ m', execute inst m = .ok () m' ∧
        m.Computed m' 10 dst (m.number 10 dst + m.number 10 src)
          (10 ^ dst.length ≤ m.number 10 dst + m.number 10 src)) ∧
    (inst.form = .sbbm → m.HoldsDigits 10 dst → m.HoldsDigits 10 src →
      ∃ m', execute inst m = .ok () m' ∧
        m.Computed m' 10 dst (m.number 10 dst - m.number 10 src)
          (m.number 10 dst < m.number 10 src)) ∧
    (inst.form = .incb → m.HoldsDigits 10 group →
      ∃ m', execute inst m = .ok () m' ∧
        m.Computed m' 10 group (m.number 10 group + 1)
          (10 ^ group.length ≤ m.number 10 group + 1)) ∧
    (inst.form = .decb → m.HoldsDigits 10 group →
      ∃ m', execute inst m = .ok () m' ∧
        m.Computed m' 10 group (m.number 10 group - 1) (m.number 10 group < 1)) := by
  intro dst src group
  refine ⟨fun hform hdst hsrc ↦ ?_, fun hform hdst hsrc ↦ ?_, fun hform hgroup ↦ ?_,
    fun hform hgroup ↦ ?_⟩
  · have hop : inst.operation
        = .ripple .addDecimal false (inst.destination.zipWith inst.source) := by
      rw [Instruction.operation, hform]
    obtain ⟨m', hexec, hcomputed⟩ := m.execute_windows hop hdst hsrc
      (m.number 10 dst + m.number 10 src) (by rw [DigitOp.sign, one_mul]; rfl)
    exact ⟨m', hexec, hcomputed.congr rfl sum_overflows_iff⟩
  · have hop : inst.operation
        = .ripple .subDecimal false (inst.destination.zipWith inst.source) := by
      rw [Instruction.operation, hform]
    obtain ⟨m', hexec, hcomputed⟩ := m.execute_windows hop hdst hsrc
      (m.number 10 dst - m.number 10 src)
      (by rw [DigitOp.sign, neg_one_mul, ← sub_eq_add_neg]; rfl)
    exact ⟨m', hexec, hcomputed.congr rfl
      (difference_overflows_iff (RegisterFile.number_lt (by decide) hdst))⟩
  · have hop : inst.operation = .ripple .addDecimal true inst.groupSteps := by
      rw [Instruction.operation, hform]
    obtain ⟨m', hexec, hcomputed⟩ := m.execute_group hop hgroup (m.number 10 group + 1) rfl
    exact ⟨m', hexec, hcomputed.congr rfl (sum_overflows_iff (b := 1))⟩
  · have hop : inst.operation = .ripple .subDecimal true inst.groupSteps := by
      rw [Instruction.operation, hform]
    obtain ⟨m', hexec, hcomputed⟩ := m.execute_group hop hgroup (m.number 10 group - 1) rfl
    exact ⟨m', hexec, hcomputed.congr rfl
      (difference_overflows_iff (b := 1) (RegisterFile.number_lt (by decide) hgroup))⟩

/-- In a bank of nines: the windows of the addition coincide and turn round behind the last
register, and the group window turns round inside its group. -/
theorem execute_decimal_nines :
    let m : Machine :=
      { registers := ⟨Vector.replicate 4 (Vector.replicate 32 9)⟩
        memory := ⟨"memory", []⟩
        ports := ⟨"io", []⟩ }
    let sum : Instruction := ⟨0x1BC1, .adbm⟩
    let difference : Instruction := ⟨0x204D, .sbbm⟩
    let successor : Instruction := ⟨0x5D2E, .incb⟩
    let predecessor : Instruction := ⟨0x5D3E, .decb⟩
    (sum.form = .adbm ∧ m.HoldsDigits 10 sum.destination.registers ∧
        m.HoldsDigits 10 sum.source.registers ∧ ∃ m', execute sum m = .ok () m' ∧
          m.Computed m' 10 sum.destination.registers (9999 + 9999) (10 ^ 4 ≤ 9999 + 9999)) ∧
      (difference.form = .sbbm ∧ m.HoldsDigits 10 difference.destination.registers ∧
        m.HoldsDigits 10 difference.source.registers ∧ ∃ m', execute difference m = .ok () m' ∧
          m.Computed m' 10 difference.destination.registers (9999 - 9999) (9999 < 9999)) ∧
      (successor.form = .incb ∧ m.HoldsDigits 10 successor.groupRegisters ∧
        ∃ m', execute successor m = .ok () m' ∧
          m.Computed m' 10 successor.groupRegisters (9999 + 1) (10 ^ 4 ≤ 9999 + 1)) ∧
      (predecessor.form = .decb ∧ m.HoldsDigits 10 predecessor.groupRegisters ∧
        ∃ m', execute predecessor m = .ok () m' ∧
          m.Computed m' 10 predecessor.groupRegisters (9999 - 1) (9999 < 1)) := by
  intro m sum difference successor predecessor
  have hsum : m.number 10 sum.destination.registers = 9999 := by decide
  have hsource : m.number 10 sum.source.registers = 9999 := by decide
  have hdifference : m.number 10 difference.destination.registers = 9999 := by decide
  have hsubtrahend : m.number 10 difference.source.registers = 9999 := by decide
  have hsuccessor : m.number 10 successor.groupRegisters = 9999 := by decide
  have hpredecessor : m.number 10 predecessor.groupRegisters = 9999 := by decide
  refine ⟨⟨rfl, by decide, by decide, ?_⟩, ⟨rfl, by decide, by decide, ?_⟩,
    ⟨rfl, by decide, ?_⟩, ⟨rfl, by decide, ?_⟩⟩
  · have hexact := (execute_decimal m sum).1 rfl (by decide) (by decide)
    rw [hsum, hsource, show sum.destination.registers.length = 4 by decide] at hexact
    exact hexact
  · have hexact := (execute_decimal m difference).2.1 rfl (by decide) (by decide)
    rw [hdifference, hsubtrahend] at hexact
    exact hexact
  · have hexact := (execute_decimal m successor).2.2.1 rfl (by decide)
    rw [hsuccessor, show successor.groupRegisters.length = 4 by decide] at hexact
    exact hexact
  · have hexact := (execute_decimal m predecessor).2.2.2 rfl (by decide)
    rw [hpredecessor] at hexact
    exact hexact

end Machine

end CalcWatch
