import CalcWatch.Proofs.Bus.Contents
import CalcWatch.Proofs.Execution.Frame

/-!
# Steps and runs, however they end

A host goes on after a fault, so a run is not over when a step fails. Statements about runs are
therefore about the machine that a step leaves, whichever way it ended, and about any list of things
that a host may do.

## Steps, however they end

What matters to a host is the machine that a step leaves behind, whether the step completed or
failed: `stepped`. Either way the step has written a part of the bytes it was about to write, from
the first one on, and it has changed the interrupt controller only by entering a routine or by a
halt in service.

## Runs

A host drives a machine by raising interrupts and by asking for steps, in any order, and it may go
on after a fault. A run is the list of these stimuli. What one stimulus keeps, a run keeps; here
this is said of the buses, to which a run does nothing but write bytes where a program can address
them.

## What a running program cannot reach

The memory below is protected from a program by the devices that hold it and by the sixteen bits of
its addresses, and of the ports it knows two. No run gets around this, whatever the devices are, and
whatever faults there are on the way.
-/

namespace CalcWatch

/-! ## Steps, however they end -/

namespace Machine

open Bus (Output ready writeAll)

variable {m : Machine} {source : InterruptSource}

/-- The machine after a step, whether it completed or failed. -/
def stepped (m : Machine) : Machine := Faulting.finalState (step m)

theorem stepped_of_ok {length : UInt8} {m' : Machine} (h : step m = .ok length m') :
    m.stepped = m' := by
  rw [stepped, h, Faulting.finalState]

theorem stepped_of_error {f : Fault} {m' : Machine} (h : step m = .error f m') :
    m.stepped = m' := by
  rw [stepped, h, Faulting.finalState]

theorem registers_pc_of_step_error {f : Fault} {m' : Machine} (h : step m = .error f m') :
    m'.registers = m.registers ∧ m'.control.pc = m.control.pc := by
  rcases step_error_cases h with ⟨source, -, henter⟩ | ⟨-, -, rfl⟩ | ⟨inst, -, -, hperform⟩
  · obtain ⟨_, _, _, memory, -, -, -, rfl⟩ := exists_of_enterService_error henter
    exact ⟨rfl, rfl⟩
  · exact ⟨rfl, rfl⟩
  · obtain ⟨stored, sent, hstopped⟩ := perform_error hperform
    rw [hstopped.eq, Operation.controlAfterFault_eq]
    exact ⟨rfl, rfl⟩

/-! ### The buses -/

theorem prefix_of_part {α : Type} {part all : List α}
    (h : part = [] ∨ ∃ refused rest, all = part ++ refused :: rest) : part <+: all := by
  rcases h with rfl | ⟨refused, rest, rfl⟩
  · exact List.nil_prefix
  · exact List.prefix_append _ _

/-- A step writes the bytes that it was about to write, or the first of them. -/
theorem exists_writes_stepped (m : Machine) :
    ∃ stored sent, stored <+: m.storesAhead ∧ ready sent <+: m.outputsAhead ∧
      writeAll stored m.memory = .ok () m.stepped.memory ∧
      writeAll sent m.ports = .ok () m.stepped.ports := by
  cases hstep : step m with
  | ok length m' =>
    rw [stepped_of_ok hstep]
    obtain ⟨-, ⟨source, hdue, henter⟩ | ⟨inst, completion, t, hdue, hinst, hperform, rfl⟩⟩ :=
      step_ok_cases hstep
    · obtain ⟨memory, hstored, rfl⟩ := exists_of_enterService_ok henter
      refine ⟨m.storesAhead, [], List.prefix_refl _, List.nil_prefix, ?_, rfl⟩
      rwa [storesAhead_of_due hdue]
    · have hcompleted := perform_ok hperform
      obtain ⟨sent, houtputs, hports⟩ := hcompleted.ports
      refine ⟨m.storesAhead, sent, List.prefix_refl _, ?_, ?_, hports⟩
      · have hahead := (outputsAhead_of_performs ⟨hdue, hinst⟩).trans houtputs
        exact hahead ▸ List.prefix_refl _
      · rw [storesAhead_of_performs ⟨hdue, hinst⟩]
        exact hcompleted.memory
  | error f m' =>
    rw [stepped_of_error hstep]
    have hafter : ∃ stored sent, m.AfterFault f stored sent m' := by
      rcases step_error_cases hstep with ⟨source, hdue, henter⟩ | ⟨-, hfault, rfl⟩ |
        ⟨inst, hdue, hinst, hperform⟩
      · exact afterFault_of_enterService hdue henter
      · exact ⟨[], [], afterFault_of_nextInstruction hfault⟩
      · obtain ⟨stored, sent, hstopped⟩ := perform_error hperform
        exact ⟨stored, sent, afterFault_of_stopped ⟨hdue, hinst⟩ hstopped⟩
    obtain ⟨stored, sent, h⟩ := hafter
    refine ⟨stored, sent, prefix_of_part h.stored_part, ?_, h.memory, h.ports⟩
    rcases h.sent_part with rfl | ⟨refused, rest, hahead⟩
    · exact List.nil_prefix
    · exact prefix_of_part (.inr ⟨refused, rest, hahead⟩)

/-! ### Where the bytes go -/

/-- The addresses of a program have sixteen bits. -/
def addressLimit : ℕ := 0x10000

theorem toUInt32_lt_addressLimit (a : UInt16) : a.toUInt32.toNat < addressLimit := a.toNat_lt

theorem lt_addressLimit_of_mem_wordStores {sp word : UInt16} {store : UInt32 × UInt8}
    (h : store ∈ wordStores sp word) : store.1.toNat < addressLimit := by
  obtain ⟨a, ha⟩ := exists_of_mem_wordStores h
  exact ha ▸ toUInt32_lt_addressLimit a

theorem lt_addressLimit_of_mem_windowStores {w : Window} {store : UInt32 × UInt8}
    (h : store ∈ m.windowStores w) : store.1.toNat < addressLimit := by
  obtain ⟨a, ha⟩ := exists_of_mem_windowStores h
  exact ha ▸ toUInt32_lt_addressLimit a

theorem lt_addressLimit_of_mem_storesAhead {store : UInt32 × UInt8} (h : store ∈ m.storesAhead) :
    store.1.toNat < addressLimit := by
  rw [storesAhead] at h
  split at h
  · exact lt_addressLimit_of_mem_wordStores h
  · rename_i inst hdue hinst
    rw [Instruction.storedBytes] at h
    split at h
    · exact lt_addressLimit_of_mem_windowStores h
    · exact lt_addressLimit_of_mem_windowStores h
    · split at h
      · exact lt_addressLimit_of_mem_wordStores h
      · cases h
    · cases h
  · cases h

theorem port_of_mem_outputsAhead {output : Output} (h : output ∈ m.outputsAhead) :
    output.1 = addressPort ∨ output.1 = dataPort := by
  rw [outputsAhead] at h
  split at h
  · cases h
  · rename_i inst hdue hinst
    rw [Instruction.sentBytes] at h
    split at h
    · exact .inr (by rw [List.mem_singleton.mp h])
    · rw [ready, toDataPort, List.map_map] at h
      obtain ⟨byte, -, rfl⟩ := List.mem_map.mp h
      exact .inr rfl
    · exact .inr (by rw [List.mem_singleton.mp h])
    · exact .inl (by rw [List.mem_singleton.mp h])
    · split at h
      · obtain ⟨j, -, rfl⟩ := List.mem_map.mp h
        exact .inr rfl
      · cases h
    · cases h
  · cases h

/-! ### The interrupt controller -/

def Halts (m : Machine) : Prop := ∃ inst, m.Performs inst ∧ inst.form = .hlt

theorem interrupts_stepped_of_due (hdue : m.interrupts.next? = some source) :
    m.stepped.interrupts = m.interrupts.enter source := by
  rw [stepped, step_of_due hdue]
  cases henter : enterService source m with
  | ok u m' =>
    rw [Faulting.bind_of_ok henter]
    obtain ⟨memory, -, rfl⟩ := exists_of_enterService_ok henter
    rfl
  | error f m' =>
    rw [Faulting.bind_of_error henter]
    obtain ⟨stored, refused, rest, memory, -, -, -, rfl⟩ := exists_of_enterService_error henter
    rfl

/-- A step that enters no routine leaves the controller alone, but for a halt in service. -/
theorem interrupts_stepped_of_not_due (hdue : m.interrupts.next? = none) :
    m.stepped.interrupts = m.interrupts ∨
      m.Halts ∧ m.interrupts.servicing = true ∧ m.stepped.interrupts = m.interrupts.finish.2 := by
  have hof : ∀ inst, m.nextInstruction = .ok inst →
      m.stepped.interrupts = inst.operation.interrupts m → m.stepped.interrupts = m.interrupts ∨
        m.Halts ∧ m.interrupts.servicing = true ∧
          m.stepped.interrupts = m.interrupts.finish.2 := by
    intro inst hinst hinterrupts
    rw [hinterrupts]
    refine (inst.interrupts_operation m).imp_right fun ⟨hform, hservicing, hfinish⟩ ↦ ?_
    exact ⟨⟨inst, ⟨hdue, hinst⟩, hform⟩, hservicing, hfinish⟩
  cases hstep : step m with
  | ok length m' =>
    obtain ⟨-, ⟨source, hsource, -⟩ | ⟨inst, completion, t, -, hinst, hperform, rfl⟩⟩ :=
      step_ok_cases hstep
    · rw [hdue] at hsource
      cases hsource
    · refine hof inst hinst ?_
      rw [stepped_of_ok hstep]
      change t.interrupts = _
      rw [(perform_ok hperform).eq]
  | error f m' =>
    rcases step_error_cases hstep with ⟨source, hsource, -⟩ | ⟨-, -, rfl⟩ |
      ⟨inst, -, hinst, hperform⟩
    · rw [hdue] at hsource
      cases hsource
    · exact .inl (by rw [stepped_of_error hstep])
    · obtain ⟨stored, sent, hstopped⟩ := perform_error hperform
      refine hof inst hinst ?_
      rw [stepped_of_error hstep, hstopped.eq]

end Machine

/-! ## Runs -/

/-- What a host does to a machine. -/
inductive Stimulus where
  /-- It raises an interrupt. -/
  | raise (source : InterruptSource)
  /-- It asks for a step. -/
  | step
deriving DecidableEq, Repr

namespace Machine

open Bus (ready writeAll)

def react (m : Machine) : Stimulus → Machine
  | .raise source => m.raise source
  | .step => m.stepped

def after (m : Machine) (stimuli : List Stimulus) : Machine := stimuli.foldl react m

/-- A property holds before every step of a run. -/
def Along (P : Machine → Prop) : Machine → List Stimulus → Prop
  | _, [] => True
  | m, stimulus :: stimuli => (stimulus = .step → P m) ∧ Along P (m.react stimulus) stimuli

variable (m : Machine) {P : Machine → Prop}

@[simp] theorem after_nil : m.after [] = m := rfl

@[simp] theorem after_cons (stimulus : Stimulus) (stimuli : List Stimulus) :
    m.after (stimulus :: stimuli) = (m.react stimulus).after stimuli := rfl

theorem after_append (stimuli stimuli' : List Stimulus) :
    m.after (stimuli ++ stimuli') = (m.after stimuli).after stimuli' := List.foldl_append

/-- What raising an interrupt keeps, and every step of a run, holds at every point of the run. -/
theorem Along.invariant {I : Machine → Prop} (hraise : ∀ n source, I n → I (raise n source))
    (hstep : ∀ n, P n → I n → I n.stepped) {m : Machine} (hI : I m)
    {stimuli before : List Stimulus} (hrun : m.Along P stimuli) (hbefore : before <+: stimuli) :
    I (m.after before) := by
  induction before generalizing m stimuli with
  | nil => exact hI
  | cons stimulus before ih =>
    obtain ⟨rest, rfl⟩ := hbefore
    obtain ⟨hfirst, hrest⟩ := hrun
    refine ih ?_ hrest (List.prefix_append before rest)
    cases stimulus with
    | raise source => exact hraise m source hI
    | step => exact hstep m (hfirst rfl) hI

/-- A run writes bytes at sixteen-bit addresses of the memory and to the two ports. -/
theorem exists_writes_after (stimuli : List Stimulus) :
    ∃ stored sent : List (UInt32 × UInt8), (∀ store ∈ stored, store.1.toNat < addressLimit) ∧
      (∀ store ∈ sent, store.1 = addressPort ∨ store.1 = dataPort) ∧
      writeAll stored m.memory = .ok () (m.after stimuli).memory ∧
      writeAll sent m.ports = .ok () (m.after stimuli).ports := by
  induction stimuli generalizing m with
  | nil => exact ⟨[], [], nofun, nofun, rfl, rfl⟩
  | cons stimulus stimuli ih =>
    obtain ⟨stored', sent', hstored', hsent', hmemory', hports'⟩ := ih (m.react stimulus)
    cases stimulus with
    | raise source => exact ⟨stored', sent', hstored', hsent', hmemory', hports'⟩
    | step =>
      obtain ⟨stored, sent, hstored, hsent, hmemory, hports⟩ := m.exists_writes_stepped
      refine ⟨stored ++ stored', sent ++ sent', fun store hmem ↦ ?_, fun store hmem ↦ ?_,
        Bus.writeAll_append_of_ok hmemory hmemory', Bus.writeAll_append_of_ok hports hports'⟩
      · rcases List.mem_append.mp hmem with hmem | hmem
        · exact lt_addressLimit_of_mem_storesAhead (hstored.subset hmem)
        · exact hstored' store hmem
      · rcases List.mem_append.mp hmem with hmem | hmem
        · exact port_of_mem_outputsAhead (hsent.subset (List.mem_map_of_mem hmem))
        · exact hsent' store hmem

theorem blank_memory_after (stimuli : List Stimulus) :
    (m.after stimuli).memory.blank = m.memory.blank := by
  obtain ⟨stored, -, -, -, hmemory, -⟩ := m.exists_writes_after stimuli
  exact Bus.blank_of_writeAll hmemory

end Machine

/-! ## What a running program cannot reach -/

namespace Machine

/-- **What a program cannot reach** stays as it is throughout a run: the devices with all that they
say about themselves, and whatever they hold out of its reach. -/
theorem after_untouched (m : Machine) (stimuli : List Stimulus) :
    ((m.after stimuli).memory.devices.map Device.traits = m.memory.devices.map Device.traits ∧
      (m.after stimuli).ports.devices.map Device.traits = m.ports.devices.map Device.traits) ∧
    m.memory.Untouched (addressLimit ≤ ·.toNat) (m.after stimuli).memory ∧
      m.ports.Untouched (fun a ↦ a ≠ addressPort ∧ a ≠ dataPort) (m.after stimuli).ports := by
  obtain ⟨stored, sent, hstored, hsent, hmemory, hports⟩ := m.exists_writes_after stimuli
  have huntouched : m.memory.Untouched (addressLimit ≤ ·.toNat) (m.after stimuli).memory :=
    .of_writeAll (fun store hmem ↦ Nat.not_le.mpr (hstored store hmem)) hmemory
  have huntouched' :
      m.ports.Untouched (fun a ↦ a ≠ addressPort ∧ a ≠ dataPort) (m.after stimuli).ports := by
    refine .of_writeAll (fun store hmem ↦ ?_) hports
    rintro ⟨haddress, hdata⟩
    exact (hsent store hmem).elim haddress hdata
  exact ⟨⟨huntouched.map_traits, huntouched'.map_traits⟩, huntouched, huntouched'⟩

end Machine

end CalcWatch
