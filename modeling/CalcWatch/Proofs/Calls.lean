import CalcWatch.Proofs.Bus.Serving
import CalcWatch.Proofs.Execution.Steps
import Mathlib.Algebra.Group.Nat.Defs

/-!
# Calls and returns

Every call lowers the stack pointer by two and leaves the address behind it in the two bytes that
this uncovers. A return undoes the last call that was not undone yet. The stack may lie at an odd
address and may turn round at the end of the memory; the only limit is that it does not come back to
its own beginning.

## The induction

It is on the number of calls, from the outermost one inwards: the first call is made, the others are
made and undone from the machine that it leaves, and then the first one is undone. In between stands
the induction hypothesis, which says two things of the inner calls. They leave the stack pointer
where they found it, and of the memory they write nothing but the bytes `below` it.

## Why the address is still there

The inner calls write below the stack pointer of the first one, and its return address lies just
above. The two do not meet as long as all of the bytes together are no more than the addresses there
are, `add_notMem_below`; this is where the limit on the depth comes from. The devices are not asked
about the inner calls again, since writing a byte does not change which bytes they take.
-/

namespace CalcWatch

/-- A call, and where it stands in the program. -/
structure CallSite where
  /-- The address of the call. -/
  pc : UInt16
  /-- The call. -/
  inst : Instruction

namespace Machine

open Bus (writeAll)

/-! ## Calling and returning -/

/-- Performs a call where it stands. The answer is where execution goes on. -/
def callAt (site : CallSite) : Faulting Machine UInt16 := do
  Faulting.update fun m ↦ { m with control := { m.control with pc := site.pc } }
  execute site.inst
  Faulting.view (·.control.pc)

def callEach : List CallSite → Faulting Machine (List UInt16)
  | [] => pure []
  | site :: sites => do
    let target ← callAt site
    let targets ← callEach sites
    pure (target :: targets)

/-- Performs a return. The answer is where execution goes on. -/
def returnOnce : Faulting Machine UInt16 := do
  execute ⟨0x0001, .ret⟩
  Faulting.view (·.control.pc)

def returnTimes : ℕ → Faulting Machine (List UInt16)
  | 0 => pure []
  | n + 1 => do
    let addresses ← returnTimes n
    let address ← returnOnce
    pure (addresses ++ [address])

/-! ## The bytes below the stack pointer -/

/-- The addresses of the bytes below a stack pointer, the nearest first. Below the first address
comes the last. -/
def below (sp : UInt16) (bytes : ℕ) : List UInt32 :=
  (List.range bytes).map fun i ↦ (sp - UInt16.ofNat (i + 1)).toUInt32

variable {sp : UInt16} {bytes : ℕ}

theorem mem_below {i : ℕ} (hi : i < bytes) :
    (sp - UInt16.ofNat (i + 1)).toUInt32 ∈ below sp bytes :=
  List.mem_map_of_mem (List.mem_range.mpr hi)

theorem mem_below_of_mem_wordStores {word : UInt16} {store : UInt32 × UInt8}
    (h : store ∈ wordStores (sp - 2) word) : store.1 ∈ below sp (bytes + 2) := by
  rw [wordStores, List.mem_cons, List.mem_singleton] at h
  rcases h with rfl | rfl
  · exact mem_below (i := 1) (Nat.succ_lt_succ (Nat.succ_pos bytes))
  · have hsub : sp - 2 + 1 = sp - UInt16.ofNat (0 + 1) := by grind
    rw [hsub]
    exact mem_below (Nat.succ_pos _)

theorem below_sub_two_subset : below (sp - 2) bytes ⊆ below sp (bytes + 2) := by
  intro a ha
  obtain ⟨i, hi, rfl⟩ := List.mem_map.mp ha
  have hadd : sp - 2 - UInt16.ofNat (i + 1) = sp - UInt16.ofNat (i + 2 + 1) := by
    rw [Nat.add_right_comm, UInt16.ofNat_add (i + 1)]
    grind
  rw [hadd]
  exact mem_below (Nat.add_lt_add_right (List.mem_range.mp hi) 2)

/-- The bytes below a stack pointer do not reach round to the bytes above it. -/
theorem add_notMem_below {i : ℕ} (hi : i + bytes < 2 ^ 16) :
    (sp + UInt16.ofNat i).toUInt32 ∉ below sp bytes := by
  intro hmem
  obtain ⟨j, hj, heq⟩ := List.mem_map.mp hmem
  have hj := List.mem_range.mp hj
  have hzero : UInt16.ofNat (i + (j + 1)) = 0 := by
    have := UInt16.toUInt32_inj.mp heq
    rw [UInt16.ofNat_add]
    grind
  have hmod := congrArg UInt16.toNat hzero
  rw [UInt16.toNat_ofNat'] at hmod
  change _ % 2 ^ 16 = 0 at hmod
  omega

/-! ## One call and one return -/

/-- The machine in a routine that it called; `memory` has the return address. -/
def inRoutine (m : Machine) (target : UInt16) (memory : Bus) : Machine :=
  { m with control := { m.control with pc := target, sp := m.control.sp - 2 }, memory }

def returnedTo (m : Machine) (p : UInt16) : Machine :=
  { m with control := { m.control with pc := p, sp := m.control.sp + 2 } }

variable {m : Machine} {site : CallSite}

theorem callAt_of_pushed (hcalls : site.inst.Calls .stored) {memory : Bus}
    (hpushed : writeAll (wordStores (m.control.sp - 2) (site.pc + 2)) m.memory = .ok () memory) :
    callAt site m = .ok site.inst.target12 (m.inRoutine site.inst.target12 memory) := by
  obtain ⟨hform, hroutine⟩ := hcalls
  have hoperation : site.inst.operation = .call site.inst.target12 := by
    rw [Instruction.operation, hform]
  let placed : Machine := { m with control := { m.control with pc := site.pc } }
  have hpush : push (site.pc + 2) placed
      = .ok () { placed.setSp (m.control.sp - 2) with memory } := push_of_stored hpushed
  have hperform : perform site.inst.operation placed
      = .ok ⟨.keep, site.inst.target12⟩ { placed.setSp (m.control.sp - 2) with memory } := by
    rw [hoperation]
    change call site.inst.target12 (site.pc + 2) placed = _
    rw [call, hroutine]
    exact Faulting.bind_of_ok hpush
  have hexecute : execute site.inst placed = .ok () (m.inRoutine site.inst.target12 memory) := by
    rw [execute, Faulting.bind_of_ok hperform]
    rfl
  change (execute site.inst >>= fun _ ↦ Faulting.view (·.control.pc)) placed = _
  rw [Faulting.bind_of_ok hexecute]
  rfl

theorem returnOnce_of_topWord {p : UInt16} (h : m.topWord = .ok p) :
    returnOnce m = .ok p (m.returnedTo p) := by
  have hperform : perform .ret m = .ok ⟨.keep, p⟩ (m.setSp (m.control.sp + 2)) := by
    change ret m = _
    exact Faulting.bind_of_ok (pop_of_topWord h)
  have hexecute : execute ⟨0x0001, .ret⟩ m = .ok () (m.returnedTo p) := by
    change (perform .ret >>= _) m = _
    rw [Faulting.bind_of_ok hperform]
    rfl
  rw [returnOnce, Faulting.bind_of_ok hexecute]
  rfl

theorem read_wordStores {memory memory' : Bus} {p : UInt16}
    (hretains : ∀ store ∈ wordStores sp p, memory.Retains store.1)
    (h : writeAll (wordStores sp p) memory = .ok () memory') :
    memory'.read sp.toUInt32 = .ok p.toUInt8 ∧
      memory'.read (sp + 1).toUInt32 = .ok (p >>> 8).toUInt8 := by
  have hnodup : ((wordStores sp p).map Prod.fst).Nodup := by
    have hne : sp.toUInt32 ≠ (sp + 1).toUInt32 := by
      rw [Ne, UInt16.toUInt32_inj]
      grind
    simpa [wordStores] using hne
  have hread : ∀ store ∈ wordStores sp p, memory'.read store.1 = .ok store.2 :=
    fun store hmem ↦ Bus.read_of_writeAll hnodup h hmem (hretains store hmem)
  rw [wordStores, List.forall_mem_cons, List.forall_mem_singleton] at hread
  exact hread

/-- A pushed word stays on top of the stack while only bytes below it are written. -/
theorem topWord_of_untouched {memory memory' : Bus} {p : UInt16}
    (hretains : ∀ store ∈ wordStores m.control.sp p, memory.Retains store.1)
    (hpushed : writeAll (wordStores m.control.sp p) memory = .ok () memory')
    (hbytes : bytes + 2 ≤ 2 ^ 16)
    (huntouched : memory'.Untouched (· ∉ below m.control.sp bytes) m.memory) :
    m.topWord = .ok p := by
  obtain ⟨hlow, hhigh⟩ := read_wordStores hretains hpushed
  have habove : ∀ i < 2, m.memoryByte (m.control.sp + UInt16.ofNat i)
      = memory'.read (m.control.sp + UInt16.ofNat i).toUInt32 :=
    fun i hi ↦ (huntouched.answers (add_notMem_below (by omega))).1
  have hzero : m.control.sp + UInt16.ofNat 0 = m.control.sp := UInt16.add_zero _
  refine topWord_of_bytes ?_ ((habove 1 (by decide)).trans hhigh)
  rw [← hlow, ← hzero]
  exact habove 0 (by decide)

/-! ## Calls and returns at any depth -/

/-- **Calls and returns nest.** However many calls are made where the stack has room for them, as
many returns go back behind them in the opposite order and leave nothing behind but the program
counter and the bytes that were on the stack. -/
theorem calls_return {sites : List CallSite} (hcalls : ∀ site ∈ sites, site.inst.Calls .stored)
    (hroom : 2 * sites.length ≤ 2 ^ 16)
    (hram : ∀ a ∈ below m.control.sp (2 * sites.length), m.memory.IsRam a) :
    ∃ deep back, callEach sites m = .ok (sites.map (·.inst.target12)) deep ∧
      returnTimes sites.length deep = .ok (sites.map (·.pc + 2)).reverse back ∧
      back = { m with
        control := { m.control with pc := (sites.map (·.pc + 2)).headD m.control.pc }
        memory := back.memory } ∧
      m.memory.Untouched (· ∉ below m.control.sp (2 * sites.length)) back.memory := by
  induction sites generalizing m with
  | nil => exact ⟨m, m, rfl, rfl, rfl, .refl _ _⟩
  | cons site sites ih =>
    -- the inner calls start from another machine, whose stack pointer is lower by two
    rw [List.length_cons, Nat.mul_succ] at *
    have hram' : ∀ store ∈ wordStores (m.control.sp - 2) (site.pc + 2), m.memory.IsRam store.1 :=
      fun store hmem ↦ hram store.1 (mem_below_of_mem_wordStores hmem)
    obtain ⟨memory, hpushed⟩ := Bus.exists_writeAll_ok fun store hmem ↦ (hram' store hmem).accepts
    have hcall := callAt_of_pushed (hcalls site List.mem_cons_self) hpushed
    obtain ⟨deep, back, hdeeper, hreturns, hback, huntouched⟩ :=
      ih (m := m.inRoutine site.inst.target12 memory)
        (fun later hlater ↦ hcalls later (List.mem_cons_of_mem _ hlater)) (by omega)
        fun a ha ↦ (hram a (below_sub_two_subset ha)).of_blank (Bus.blank_of_writeAll hpushed)
    -- the inner calls have used the bytes below this one only
    have hsp : back.control.sp = m.control.sp - 2 := by
      rw [hback]
      rfl
    have htop : back.topWord = .ok (site.pc + 2) := by
      rw [← hsp] at hram' hpushed
      exact topWord_of_untouched (fun store hmem ↦ (hram' store hmem).retains) hpushed hroom
        (hsp ▸ huntouched)
    have hreturn := returnOnce_of_topWord htop
    have hinner : m.memory.Untouched (· ∉ below m.control.sp (2 * sites.length + 2)) memory :=
      .of_writeAll (fun store hmem ↦ not_not_intro (mem_below_of_mem_wordStores hmem)) hpushed
    refine ⟨deep, back.returnedTo (site.pc + 2), ?_, ?_, ?_, ?_⟩
    · rw [callEach, Faulting.bind_of_ok hcall, Faulting.bind_of_ok hdeeper]
      rfl
    · rw [returnTimes, Faulting.bind_of_ok hreturns, Faulting.bind_of_ok hreturn,
        List.map_cons, List.reverse_cons]
      rfl
    · have hrestored : m.control.sp - 2 + 2 = m.control.sp := UInt16.sub_add_cancel _ _
      rw [returnedTo, hsp, hrestored, hback]
      rfl
    · exact hinner.trans (huntouched.mono fun a ha hmem ↦ ha (below_sub_two_subset hmem))

/-- A machine with room for two words on a stack that turns round at the end of the memory. -/
private def atOddAddress : Machine where
  control := { sp := 0x0001 }
  memory := ⟨"memory", [.store { range := .between 0x0000 0x0001 },
    .store { range := .between 0xFFFD 0x10000 }]⟩
  ports := ⟨"io", []⟩

theorem calls_return_atOddAddress :
    ∃ deep back,
      callEach [⟨0xFFFE, ⟨0xA123, .call⟩⟩, ⟨0x1800, ⟨0xAFFF, .call⟩⟩] atOddAddress
        = .ok [0x0246, 0x1FFE] deep ∧
      returnTimes 2 deep = .ok [0x1802, 0x0000] back ∧
      back = { atOddAddress with
        control := { atOddAddress.control with pc := 0x0000 }, memory := back.memory } ∧
      atOddAddress.memory.Untouched (· ∉ below 0x0001 4) back.memory := by
  refine calls_return (m := atOddAddress) (List.forall_mem_cons.mpr ⟨⟨rfl, rfl⟩,
    List.forall_mem_singleton.mpr ⟨rfl, rfl⟩⟩) (by decide) fun a ha ↦ ?_
  have ha : a ∈ [0x0000, 0xFFFF, 0xFFFE, 0xFFFD] := ha
  simp only [List.mem_cons, List.not_mem_nil, or_false] at ha
  rcases ha with rfl | rfl | rfl | rfl <;> exact ⟨_, rfl, rfl, rfl, rfl⟩

end Machine

end CalcWatch
