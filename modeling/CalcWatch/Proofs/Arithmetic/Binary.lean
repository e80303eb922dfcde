import CalcWatch.Proofs.Arithmetic.Ripple
import CalcWatch.Proofs.Execution.Frame
import CalcWatch.Proofs.Invariants.Parts

/-!
# Binary windows and comparisons

Two consequences of exact arithmetic on windows. Both rest on the fact that a number below a power
of the base has its digits in one way only, so numbers tell registers and registers tell numbers.

## Counting in sixteen

Cells hold nibbles, so the instructions that count in sixteen are exact on every machine, with no
condition on its digits. A subtraction then undoes an addition of the same windows: the second total
is the first one less the source, the source is still what it was, and a number below the power of
the base has its digits in one way only.

## Comparing windows

A comparison looks at the digits from the top down and stops at the first place in which the two
windows differ. A subtraction goes from the bottom up and hands a borrow on. Both find the order of
the numbers in the windows: all digits below a place together are worth less than one unit of that
place, so the topmost difference outweighs everything below it.
-/

namespace CalcWatch

/-! ## Counting in sixteen -/

/-! ### Files that hold the same numbers -/

namespace RegisterFile

variable {file file' : RegisterFile}

theorem get_eq_of_number_eq {bank : Bank} {base : ℕ} (hbase : 1 < base) {regs : List Reg}
    (hdigits : ∀ r ∈ regs, (file.get bank r).toNat < base)
    (hdigits' : ∀ r ∈ regs, (file'.get bank r).toNat < base)
    (h : file'.number bank base regs = file.number bank base regs) :
    ∀ r ∈ regs, file'.get bank r = file.get bank r := by
  have hlists := Nat.ofDigits_inj_of_len_eq hbase (by simp) (List.forall_mem_map.mpr hdigits')
    (List.forall_mem_map.mpr hdigits) h
  intro r hr
  exact UInt8.toNat_inj.mp (List.map_inj_left.mp hlists r hr)

end RegisterFile

namespace Machine

variable {m m' : Machine} {inst : Instruction}

theorem holdsDigits_of_nibbles (h : m.registers.Nibbles) (regs : List Reg) :
    m.HoldsDigits 16 regs :=
  fun r _ ↦ Nat.lt_succ_of_le (UInt8.le_iff_toNat_le.mp (h.get_le (m.bank .current) r))

/-! ### Sums and differences of windows -/

section

variable (h : m.registers.Nibbles)

include h

theorem execute_adm (hform : inst.form = .adm) :
    ∃ m', execute inst m = .ok () m' ∧ m.Computed m' 16 inst.destination.registers
      (m.number 16 inst.destination.registers + m.number 16 inst.source.registers)
      (16 ^ inst.destination.registers.length
        ≤ m.number 16 inst.destination.registers + m.number 16 inst.source.registers) := by
  have hop : inst.operation = .ripple .add false (inst.destination.zipWith inst.source) := by
    rw [Instruction.operation, hform]
  obtain ⟨m', hexec, hcomputed⟩ := m.execute_windows hop (holdsDigits_of_nibbles h _)
    (holdsDigits_of_nibbles h _)
    (m.number 16 inst.destination.registers + m.number 16 inst.source.registers)
    (by rw [DigitOp.sign, one_mul]; rfl)
  exact ⟨m', hexec, hcomputed.congr rfl sum_overflows_iff⟩

theorem execute_sbm (hform : inst.form = .sbm) :
    ∃ m', execute inst m = .ok () m' ∧ m.Computed m' 16 inst.destination.registers
      (m.number 16 inst.destination.registers - m.number 16 inst.source.registers)
      (m.number 16 inst.destination.registers < m.number 16 inst.source.registers) := by
  have hop : inst.operation = .ripple .sub false (inst.destination.zipWith inst.source) := by
    rw [Instruction.operation, hform]
  exact execute_difference hop rfl (holdsDigits_of_nibbles h _) (holdsDigits_of_nibbles h _)

theorem execute_inc (hform : inst.form = .inc) :
    ∃ m', execute inst m = .ok () m' ∧ m.Computed m' 16 inst.groupRegisters
      (m.number 16 inst.groupRegisters + 1)
      (16 ^ inst.groupRegisters.length ≤ m.number 16 inst.groupRegisters + 1) := by
  have hop : inst.operation = .ripple .add true inst.groupSteps := by
    rw [Instruction.operation, hform]
  obtain ⟨m', hexec, hcomputed⟩ := m.execute_group hop (holdsDigits_of_nibbles h _)
    (m.number 16 inst.groupRegisters + 1) rfl
  exact ⟨m', hexec, hcomputed.congr rfl (sum_overflows_iff (b := 1))⟩

theorem execute_dec (hform : inst.form = .dec) :
    ∃ m', execute inst m = .ok () m' ∧ m.Computed m' 16 inst.groupRegisters
      (m.number 16 inst.groupRegisters - 1) (m.number 16 inst.groupRegisters < 1) := by
  have hop : inst.operation = .ripple .sub true inst.groupSteps := by
    rw [Instruction.operation, hform]
  have hgroup := holdsDigits_of_nibbles h inst.groupRegisters
  obtain ⟨m', hexec, hcomputed⟩ := m.execute_group hop hgroup
    (m.number 16 inst.groupRegisters - 1) rfl
  exact ⟨m', hexec, hcomputed.congr rfl
    (difference_overflows_iff (b := 1) (RegisterFile.number_lt (by decide) hgroup))⟩

end

/-! ### Undoing an addition -/

/-- Of all instructions only the choice of a bank changes the current bank. -/
theorem bank_of_execute_ok (h : execute inst m = .ok () m') (hform : inst.form ≠ .lcrb) :
    m'.bank .current = m.bank .current := by
  obtain ⟨completion, t, hperform, rfl⟩ := exists_of_execute_ok h
  exact (frame_of_completed (perform_ok hperform)).currentBank.resolve_right hform

theorem nibbles_of_execute_ripple (h : m.registers.Nibbles) {op : DigitOp} {carry : Bool}
    {steps : List Assignment} (hop : inst.operation = .ripple op carry steps)
    (hexec : execute inst m = .ok () m') : m'.registers.Nibbles := by
  obtain ⟨completion, t, hperform, rfl⟩ := exists_of_execute_ok hexec
  rw [hop] at hperform
  cases hperform
  exact h.ripple (m.bank .current) op carry steps

/-- Two windows without a common register. -/
def Apart (w other : List Reg) : Prop := ∀ r ∈ w, ∀ r' ∈ other, r.slot ≠ r'.slot

instance (w other : List Reg) : Decidable (Apart w other) :=
  inferInstanceAs (Decidable (∀ r ∈ w, ∀ r' ∈ other, r.slot ≠ r'.slot))

/-- What is computed in one window leaves the number in another. -/
theorem Computed.number_eq_of_apart {base : ℕ} {regs other : List Reg} {total : ℤ} {carry : Prop}
    (h : m.Computed m' base regs total carry) (hapart : Apart regs other) :
    m'.registers.number (m.bank .current) base other = m.number base other := by
  refine RegisterFile.number_congr fun r hr ↦ h.others ((m.bank .current).cell r) fun hmem ↦ ?_
  obtain ⟨r', hr', hcell⟩ := List.mem_map.mp hmem
  exact hapart r' hr' r hr (Bank.cell_inj.mp hcell)

/-- If the second computation leaves the number that the first one found, nothing has changed. -/
theorem Computed.registers_eq {m'' : Machine} {base : ℕ} (hbase : 1 < base) {regs : List Reg}
    {total total' : ℤ} {carry carry' : Prop} (h : m.Computed m' base regs total carry)
    (h' : m'.Computed m'' base regs total' carry') (hbank : m'.bank .current = m.bank .current)
    (hdigits : m.HoldsDigits base regs)
    (hnumber : m''.registers.number (m.bank .current) base regs = m.number base regs) :
    m''.registers = m.registers := by
  have hothers := h'.others
  have hdigits' := h'.digits
  rw [hbank] at hothers hdigits'
  have hget := RegisterFile.get_eq_of_number_eq hbase hdigits hdigits' hnumber
  refine RegisterFile.eq_of_peek fun c ↦ ?_
  by_cases hc : c ∈ regs.map (m.bank .current).cell
  · obtain ⟨r, hr, rfl⟩ := List.mem_map.mp hc
    exact hget r hr
  · exact h.others.trans hothers c hc

/-- A subtraction takes away again what an addition of the same windows has added. -/
theorem execute_sbm_of_adm (h : m.registers.Nibbles) {back : Instruction}
    (hform : inst.form = .adm) (hback : back.form = .sbm) (hd : back.d = inst.d)
    (hs : back.s = inst.s) (hapart : Apart inst.destination.registers inst.source.registers) :
    ∃ m' m'', execute inst m = .ok () m' ∧ execute back m' = .ok () m'' ∧
      m''.registers = m.registers := by
  have hdestination := Instruction.destination_congr hd hs
  have hsource := Instruction.source_congr hd hs
  obtain ⟨m', hexec, hadded⟩ := execute_adm h hform
  have hbank : m'.bank .current = m.bank .current :=
    bank_of_execute_ok hexec (by rw [hform]; decide)
  have hnibbles : m'.registers.Nibbles :=
    nibbles_of_execute_ripple h (by rw [Instruction.operation, hform]) hexec
  obtain ⟨m'', hexec', htaken⟩ := execute_sbm hnibbles hback
  rw [hdestination, hsource] at htaken
  refine ⟨m', m'', hexec, hexec', hadded.registers_eq (by decide) htaken hbank
    (holdsDigits_of_nibbles h _) ?_⟩
  have hlt := RegisterFile.number_lt (by decide)
    (holdsDigits_of_nibbles h inst.destination.registers)
  have htotal : (m.number 16 inst.destination.registers + m.number 16 inst.source.registers
      - m.number 16 inst.source.registers : ℤ) = m.number 16 inst.destination.registers := by ring
  -- the second total is the first one less the source, and the reductions come to one
  have hleft := htaken.number_eq
  rw [number, number, hbank, hadded.number_eq_of_apart hapart, hadded.number_eq,
    Int.emod_sub_emod, htotal, Int.emod_eq_of_lt (Int.natCast_nonneg _) (by exact_mod_cast hlt)]
    at hleft
  exact_mod_cast hleft

/-! ### The four binary instructions -/

/-- **Binary windows compute exactly**, whatever nibbles the machine holds and however its windows
lie; and a subtraction undoes an addition of the same two windows, if they are apart. -/
theorem execute_binary (h : m.registers.Nibbles) (inst : Instruction) :
    let dst := inst.destination.registers
    let src := inst.source.registers
    let group := inst.groupRegisters
    (inst.form = .adm → ∃ m', execute inst m = .ok () m' ∧
      m.Computed m' 16 dst (m.number 16 dst + m.number 16 src)
        (16 ^ dst.length ≤ m.number 16 dst + m.number 16 src)) ∧
    (inst.form = .sbm → ∃ m', execute inst m = .ok () m' ∧
      m.Computed m' 16 dst (m.number 16 dst - m.number 16 src)
        (m.number 16 dst < m.number 16 src)) ∧
    (inst.form = .inc → ∃ m', execute inst m = .ok () m' ∧
      m.Computed m' 16 group (m.number 16 group + 1)
        (16 ^ group.length ≤ m.number 16 group + 1)) ∧
    (inst.form = .dec → ∃ m', execute inst m = .ok () m' ∧
      m.Computed m' 16 group (m.number 16 group - 1) (m.number 16 group < 1)) ∧
    ∀ back : Instruction, inst.form = .adm → back.form = .sbm → back.d = inst.d → back.s = inst.s →
      Apart dst src → ∃ m' m'', execute inst m = .ok () m' ∧ execute back m' = .ok () m'' ∧
        m''.registers = m.registers :=
  ⟨execute_adm h, execute_sbm h, execute_inc h, execute_dec h,
    fun _ ↦ execute_sbm_of_adm h⟩

/-- In a bank of fifteens: the destination window turns round behind the last register, and the
group window turns round inside its group. -/
theorem execute_binary_fifteens :
    let m : Machine :=
      { registers := ⟨Vector.replicate 4 (Vector.replicate 32 15)⟩
        memory := ⟨"memory", []⟩
        ports := ⟨"io", []⟩ }
    let sum : Instruction := ⟨0x17C9, .adm⟩
    let difference : Instruction := ⟨0x1FC9, .sbm⟩
    let successor : Instruction := ⟨0x5D26, .inc⟩
    let predecessor : Instruction := ⟨0x5D36, .dec⟩
    m.registers.Nibbles ∧
      (sum.form = .adm ∧ ∃ m', execute sum m = .ok () m' ∧
        m.Computed m' 16 sum.destination.registers (65535 + 65535) (16 ^ 4 ≤ 65535 + 65535)) ∧
      (difference.form = .sbm ∧ ∃ m', execute difference m = .ok () m' ∧
        m.Computed m' 16 difference.destination.registers (65535 - 65535) (65535 < 65535)) ∧
      (successor.form = .inc ∧ ∃ m', execute successor m = .ok () m' ∧
        m.Computed m' 16 successor.groupRegisters (65535 + 1) (16 ^ 4 ≤ 65535 + 1)) ∧
      (predecessor.form = .dec ∧ ∃ m', execute predecessor m = .ok () m' ∧
        m.Computed m' 16 predecessor.groupRegisters (65535 - 1) (65535 < 1)) ∧
      (difference.d = sum.d ∧ difference.s = sum.s ∧
        Apart sum.destination.registers sum.source.registers ∧
        ∃ m' m'', execute sum m = .ok () m' ∧ execute difference m' = .ok () m'' ∧
          m''.registers = m.registers) := by
  intro m sum difference successor predecessor
  have hnibbles : m.registers.Nibbles := by
    intro c
    simp [RegisterFile.peek, m]
  have hsum : m.number 16 sum.destination.registers = 65535 := by decide
  have hsource : m.number 16 sum.source.registers = 65535 := by decide
  have hminuend : m.number 16 difference.destination.registers = 65535 := by decide
  have hsubtrahend : m.number 16 difference.source.registers = 65535 := by decide
  have hsuccessor : m.number 16 successor.groupRegisters = 65535 := by decide
  have hpredecessor : m.number 16 predecessor.groupRegisters = 65535 := by decide
  obtain ⟨hadm, -, -, -, hback⟩ := execute_binary hnibbles sum
  obtain ⟨-, hsbm, -, -, -⟩ := execute_binary hnibbles difference
  obtain ⟨-, -, hinc, -, -⟩ := execute_binary hnibbles successor
  obtain ⟨-, -, -, hdec, -⟩ := execute_binary hnibbles predecessor
  refine ⟨hnibbles, ⟨rfl, ?_⟩, ⟨rfl, ?_⟩, ⟨rfl, ?_⟩, ⟨rfl, ?_⟩, by decide, by decide, by decide, ?_⟩
  · have hexact := hadm rfl
    rw [hsum, hsource, show sum.destination.registers.length = 4 by decide] at hexact
    exact hexact
  · have hexact := hsbm rfl
    rw [hminuend, hsubtrahend] at hexact
    exact hexact
  · have hexact := hinc rfl
    rw [hsuccessor, show successor.groupRegisters.length = 4 by decide] at hexact
    exact hexact
  · have hexact := hdec rfl
    rw [hpredecessor] at hexact
    exact hexact
  · exact hback difference rfl rfl (by decide) (by decide) (by decide)

end Machine

/-! ## Comparing windows -/

/-- What stands below a place never outweighs a difference in that place. -/
theorem add_mul_lt_add_mul {low size top top' : ℕ} (low' : ℕ) (hlow : low < size)
    (htop : top < top') : low + size * top < low' + size * top' :=
  calc low + size * top < size + size * top := Nat.add_lt_add_right hlow _
    _ = size * (top + 1) := by ring
    _ ≤ size * top' := Nat.mul_le_mul_left size htop
    _ ≤ low' + size * top' := Nat.le_add_left _ low'

/-! ### Pairs of registers -/

namespace RegisterFile

variable {file : RegisterFile} {bank : Bank}

theorem number_concat (file : RegisterFile) (bank : Bank) (base : ℕ) (regs : List Reg) (r : Reg) :
    file.number bank base (regs ++ [r])
      = file.number bank base regs + base ^ regs.length * (file.get bank r).toNat := by
  rw [number, List.map_append, Nat.ofDigits_append, List.length_map, List.map_singleton,
    Nat.ofDigits_singleton]
  rfl

theorem comparePairs_cons_of_eq {pair : Reg × Reg} (pairs : List (Reg × Reg))
    (h : file.get bank pair.1 = file.get bank pair.2) :
    file.comparePairs bank (pair :: pairs) = file.comparePairs bank pairs := by
  rw [comparePairs, comparePairs, List.find?_cons_of_neg]
  simpa using h

theorem comparePairs_cons_of_ne {pair : Reg × Reg} (pairs : List (Reg × Reg))
    (h : file.get bank pair.1 ≠ file.get bank pair.2) :
    file.comparePairs bank (pair :: pairs)
      = .carryZero (file.get bank pair.1 < file.get bank pair.2) false := by
  rw [comparePairs, List.find?_cons_of_pos]
  simpa using h

/-- **Digits are compared like the numbers they make up.** The induction is on the pairs: the first
one stands above all others, so its digits decide unless they are equal. -/
theorem comparePairs_exact (file : RegisterFile) (bank : Bank) {base : ℕ} (hbase : 1 < base)
    (pairs : List (Reg × Reg))
    (hleft : ∀ r ∈ pairs.map Prod.fst, (file.get bank r).toNat < base)
    (hright : ∀ r ∈ pairs.map Prod.snd, (file.get bank r).toNat < base) :
    file.comparePairs bank pairs = .carryZero
      (file.number bank base (pairs.map Prod.fst).reverse
        < file.number bank base (pairs.map Prod.snd).reverse)
      (file.number bank base (pairs.map Prod.fst).reverse
        = file.number bank base (pairs.map Prod.snd).reverse) := by
  induction pairs with
  | nil => simp [comparePairs]
  | cons pair pairs ih =>
    rw [List.map_cons] at hleft hright
    have hleft' := (List.forall_mem_cons.mp hleft).2
    have hright' := (List.forall_mem_cons.mp hright).2
    have hlt := number_lt hbase fun r hr ↦ hleft' r (List.mem_reverse.mp hr)
    have hlt' := number_lt hbase fun r hr ↦ hright' r (List.mem_reverse.mp hr)
    have hlength : (pairs.map Prod.snd).reverse.length = (pairs.map Prod.fst).reverse.length := by
      simp
    rw [hlength] at hlt'
    rw [List.map_cons, List.map_cons, List.reverse_cons, List.reverse_cons, number_concat,
      number_concat, hlength]
    rcases lt_trichotomy (file.get bank pair.1).toNat (file.get bank pair.2).toNat with
      hbelow | hsame | habove
    · have horder := add_mul_lt_add_mul
        (file.number bank base (pairs.map Prod.snd).reverse) hlt hbelow
      rw [comparePairs_cons_of_ne pairs fun e ↦ hbelow.ne (congrArg _ e),
        decide_eq_true (UInt8.lt_iff_toNat_lt.mpr hbelow), decide_eq_true horder,
        decide_eq_false horder.ne]
    · rw [comparePairs_cons_of_eq pairs (UInt8.toNat_inj.mp hsame), ih hleft' hright', hsame]
      simp only [Nat.add_lt_add_iff_right, Nat.add_right_cancel_iff]
    · have horder := add_mul_lt_add_mul
        (file.number bank base (pairs.map Prod.fst).reverse) hlt' habove
      rw [comparePairs_cons_of_ne pairs fun e ↦ habove.ne' (congrArg _ e),
        decide_eq_false (UInt8.lt_iff_toNat_lt.not.mpr habove.not_gt),
        decide_eq_false horder.not_gt, decide_eq_false horder.ne']

end RegisterFile

/-! ### Windows -/

theorem Window.map_fst_pairsFromTop (w other : Window) :
    (w.pairsFromTop other).map Prod.fst = w.registers.reverse := by
  rw [pairsFromTop, List.map_map, registers, ← List.map_reverse]
  rfl

theorem Window.map_snd_pairsFromTop (w other : Window) (h : w.length = other.length) :
    (w.pairsFromTop other).map Prod.snd = other.registers.reverse := by
  rw [pairsFromTop, List.map_map, registers, ← List.map_reverse, h]
  rfl

namespace Machine

variable {m m' : Machine} {inst : Instruction}

/-- What a comparison leaves: Zero and Carry tell the order, and nothing else has changed but the
program counter. -/
structure Compared (m m' : Machine) (less equal : Prop) : Prop where
  /-- Zero is set if the two are equal. -/
  zero_iff : m'.control.flag .zero = true ↔ equal
  /-- Carry is set if the first is below the second. -/
  carry_iff : m'.control.flag .carry = true ↔ less
  /-- The bits of the flags byte that are no flags stay. -/
  flags : m'.control.flags &&& 0xFC = m.control.flags &&& 0xFC
  /-- The rest of the machine. -/
  eq : m' = { m with
    control := { m.control with pc := m.control.pc + 2, flags := m'.control.flags } }

theorem execute_cpm {base : ℕ} (hbase : 1 < base) (hform : inst.form = .cpm)
    (hdst : m.HoldsDigits base inst.destination.registers)
    (hsrc : m.HoldsDigits base inst.source.registers) :
    ∃ m', execute inst m = .ok () m' ∧
      m.Compared m'
        (m.number base inst.destination.registers < m.number base inst.source.registers)
        (m.number base inst.destination.registers = m.number base inst.source.registers) := by
  have hfst := inst.destination.map_fst_pairsFromTop inst.source
  have hsnd := inst.destination.map_snd_pairsFromTop inst.source rfl
  have hexact := m.registers.comparePairs_exact (m.bank .current) hbase
    (inst.destination.pairsFromTop inst.source)
    (fun r hr ↦ hdst r (List.mem_reverse.mp (hfst ▸ hr)))
    (fun r hr ↦ hsrc r (List.mem_reverse.mp (hsnd ▸ hr)))
  rw [hfst, hsnd, List.reverse_reverse, List.reverse_reverse] at hexact
  have hperform : perform inst.operation m
      = .ok ⟨m.registers.comparePairs (m.bank .current)
          (inst.destination.pairsFromTop inst.source), m.following⟩ m := by
    rw [Instruction.operation, hform]
    rfl
  rw [hexact] at hperform
  refine ⟨_, Faulting.bind_of_ok hperform, ?_⟩
  constructor
  case zero_iff =>
    refine Iff.trans (Bool.eq_iff_iff.mp ?_) decide_eq_true_iff
    exact (m.control.setFlag .carry _).flag_setFlag_self _
  case carry_iff =>
    refine Iff.trans (Bool.eq_iff_iff.mp ?_) decide_eq_true_iff
    exact ((m.control.setFlag .carry _).flag_setFlag_of_ne _ (by decide)).trans
      (m.control.flag_setFlag_self _)
  case flags => exact FlagUpdate.flags_apply_and (.carryZero _ _) m.control
  case eq => rfl

/-- The comparison finds the order in every base whose digits the windows hold. -/
theorem Compared.less_iff {less equal : Prop} (h : m.Compared m' less equal) {base : ℕ}
    (hbase : 1 < base) (hform : inst.form = .cpm) (hexec : execute inst m = .ok () m')
    (hdst : m.HoldsDigits base inst.destination.registers)
    (hsrc : m.HoldsDigits base inst.source.registers) :
    less ↔ m.number base inst.destination.registers < m.number base inst.source.registers := by
  obtain ⟨t, hexec', hcompared⟩ := execute_cpm hbase hform hdst hsrc
  rw [hexec] at hexec'
  cases hexec'
  exact h.carry_iff.symm.trans hcompared.carry_iff

/-- **Windows are compared as numbers**, and the borrow of a subtraction of the same windows says
the same: in sixteen always, and in ten if the windows hold decimal digits. -/
theorem execute_comparison (h : m.registers.Nibbles) (inst : Instruction)
    (hform : inst.form = .cpm) :
    let dst := inst.destination.registers
    let src := inst.source.registers
    ∃ m', execute inst m = .ok () m' ∧
      m.Compared m' (m.number 16 dst < m.number 16 src) (m.number 16 dst = m.number 16 src) ∧
      ∀ difference : Instruction, difference.d = inst.d → difference.s = inst.s →
        difference.form = .sbm ∨
          (difference.form = .sbbm ∧ m.HoldsDigits 10 dst ∧ m.HoldsDigits 10 src) →
        ∃ m'', execute difference m = .ok () m'' ∧
          m''.control.flag .carry = m'.control.flag .carry := by
  intro dst src
  obtain ⟨m', hexec, hcompared⟩ := execute_cpm (by decide) hform
    (holdsDigits_of_nibbles h dst) (holdsDigits_of_nibbles h src)
  refine ⟨m', hexec, hcompared, fun difference hd hs hdifference ↦ ?_⟩
  have hdestination := Instruction.destination_congr hd hs
  have hsource := Instruction.source_congr hd hs
  rcases hdifference with hbinary | ⟨hdecimal, hdst, hsrc⟩
  · obtain ⟨m'', hexec', hcomputed⟩ := execute_sbm h hbinary
    rw [hdestination, hsource] at hcomputed
    exact ⟨m'', hexec', Bool.eq_iff_iff.mpr (hcomputed.carry_iff.trans hcompared.carry_iff.symm)⟩
  · have hop : difference.operation
        = .ripple .subDecimal false (difference.destination.zipWith difference.source) := by
      rw [Instruction.operation, hdecimal]
    obtain ⟨m'', hexec', hcomputed⟩ := execute_difference hop rfl
      (by rw [hdestination]; exact hdst) (by rw [hsource]; exact hsrc)
    rw [hdestination, hsource] at hcomputed
    -- the digits are decimal, so the numbers in ten are in the same order as those in sixteen
    have horder := hcompared.less_iff (by decide : 1 < 10) hform hexec hdst hsrc
    exact ⟨m'', hexec', Bool.eq_iff_iff.mpr
      (hcomputed.carry_iff.trans (horder.symm.trans hcompared.carry_iff.symm))⟩

/-- A machine with `321` in the window that begins at `R30` and turns round behind the last
register, and `322` in the one that ends at `R8`. -/
private def balancing : Machine where
  registers := (((((RegisterFile.zero.set ⟨0⟩ ⟨30⟩ 1).set ⟨0⟩ ⟨31⟩ 2).set ⟨0⟩ ⟨0⟩ 3).set
    ⟨0⟩ ⟨6⟩ 2).set ⟨0⟩ ⟨7⟩ 2).set ⟨0⟩ ⟨8⟩ 3
  memory := ⟨"memory", []⟩
  ports := ⟨"io", []⟩

theorem execute_comparison_turning :
    balancing.registers.Nibbles ∧ (Instruction.mk 0x2BC8 .cpm).form = .cpm ∧
      ∃ m₁ m₂ m₃, execute ⟨0x2BC8, .cpm⟩ balancing = .ok () m₁ ∧
        m₁.control.flag .zero = false ∧ m₁.control.flag .carry = true ∧
        execute ⟨0x1FC8, .sbm⟩ balancing = .ok () m₂ ∧ m₂.control.flag .carry = true ∧
        execute ⟨0x23C8, .sbbm⟩ balancing = .ok () m₃ ∧ m₃.control.flag .carry = true := by
  have hnibbles : balancing.registers.Nibbles :=
    (((((RegisterFile.nibbles_zero.set ⟨0⟩ ⟨30⟩ 1).set ⟨0⟩ ⟨31⟩ 2).set ⟨0⟩ ⟨0⟩ 3).set
      ⟨0⟩ ⟨6⟩ 2).set ⟨0⟩ ⟨7⟩ 2).set ⟨0⟩ ⟨8⟩ 3
  obtain ⟨m₁, hexec, hcompared, hborrow⟩ :=
    execute_comparison hnibbles ⟨0x2BC8, .cpm⟩ rfl
  obtain ⟨m₂, hexec', hcarry'⟩ := hborrow ⟨0x1FC8, .sbm⟩ (by decide) (by decide) (.inl rfl)
  obtain ⟨m₃, hexec'', hcarry''⟩ := hborrow ⟨0x23C8, .sbbm⟩ (by decide) (by decide)
    (.inr ⟨rfl, by decide, by decide⟩)
  have hcarry : m₁.control.flag .carry = true := hcompared.carry_iff.mpr (by decide)
  have hzero : m₁.control.flag .zero = false :=
    Bool.eq_false_iff.mpr (hcompared.zero_iff.not.mpr (by decide))
  exact ⟨hnibbles, rfl, m₁, m₂, m₃, hexec, hzero, hcarry, hexec', hcarry'.trans hcarry, hexec'',
    hcarry''.trans hcarry⟩

end Machine

end CalcWatch
