import CalcWatch.Proofs.Interrupts.Controller
import CalcWatch.Proofs.Runs.Stimuli

/-!
# Interrupts from the entry to the halt

An interrupt is raised, waits, is acknowledged, is served and is over. What can go wrong is the push
of the return address, and it is told at each stage what that does.

## Entering a routine

An interrupt is acknowledged before its return address is pushed, and the push can fail. So there
are two ways in which a step deals with the source that is due: it enters the routine, or it gives
the interrupt up together with the bytes that it could not store. In neither case does it look at
what the memory holds.

## What becomes of an interrupt

A source that was raised stays pending until a step takes it off, and a step takes off only the
source that is due. As a rule this step enters its routine. But the source is acknowledged before
the return address is pushed, and a fault does not undo what came before it: if the stack cannot
take the address, the interrupt is gone with nothing to show for it.

## The service of an interrupt

From the entry of a routine to its halt no other routine is entered: what is raised meanwhile stays
pending, and so does what was pending before. If the routine hands back the stack as it found it,
the halt goes on where the interrupt came, and the step after it enters the next routine that is
waited for. The devices take the same bytes a second time, so this step does not fail either.
-/

namespace CalcWatch.Machine

/-! ## Entering a routine -/

section

open Bus (writeAll write)

/-- From `m` to `m'` the routine of the first pending source was entered. -/
structure Enters (m : Machine) (source : InterruptSource) (m' : Machine) : Prop where
  /-- No pending source comes before this one. -/
  first : m.interrupts.First source
  /-- The program counter was pushed. -/
  pushed : writeAll (wordStores (m.control.sp - 2) m.control.pc) m.memory = .ok () m'.memory
  /-- Execution goes on in the routine, and nothing else has changed. -/
  eq : m' = { m with
    control := { m.control with pc := source.routine, sp := m.control.sp - 2 }
    interrupts := m.interrupts.enter source, memory := m'.memory }

/-- From `m` to `m'` the first pending source was given up, since the program counter could not be
pushed. -/
structure GivesUp (m : Machine) (source : InterruptSource) (f : Fault) (m' : Machine) : Prop where
  /-- No pending source comes before this one. -/
  first : m.interrupts.First source
  /-- One of the two bytes was refused. -/
  refused : ∃ stored refused rest,
    wordStores (m.control.sp - 2) m.control.pc = stored ++ refused :: rest ∧
      writeAll stored m.memory = .ok () m'.memory ∧
      write refused.1 refused.2 m'.memory = .error f m'.memory
  /-- The source was acknowledged and the stack pointer lowered, and nothing else has changed. -/
  eq : m' = { m with
    control := { m.control with sp := m.control.sp - 2 }
    interrupts := m.interrupts.enter source, memory := m'.memory }

variable {m m' : Machine} {source : InterruptSource} {length : UInt8} {f : Fault}

theorem Enters.servicing (h : m.Enters source m') : m'.interrupts.servicing = true := by
  rw [h.eq]
  rfl

/-- Nothing but the source itself is taken off. -/
theorem Enters.isPending_iff (h : m.Enters source m') (other : InterruptSource) :
    m'.interrupts.isPending other = true ↔
      m.interrupts.isPending other = true ∧ source ≠ other := by
  rw [h.eq]
  exact InterruptController.isPending_enter

theorem first_of_due (hdue : m.interrupts.next? = some source) : m.interrupts.First source :=
  (InterruptController.next?_eq_some_iff.mp hdue).2

theorem enters_of_step_ok (hdue : m.interrupts.next? = some source) (h : step m = .ok length m') :
    m.Enters source m' := by
  rw [step_of_due hdue] at h
  obtain ⟨_, t, henter, hlength⟩ := Faulting.exists_of_bind_ok h
  cases hlength
  obtain ⟨memory, hpushed, rfl⟩ := exists_of_enterService_ok henter
  exact ⟨first_of_due hdue, hpushed, rfl⟩

theorem givesUp_of_step_error (hdue : m.interrupts.next? = some source)
    (h : step m = .error f m') : m.GivesUp source f m' := by
  rw [step_of_due hdue] at h
  have henter := Faulting.error_of_bind_error (fun _ ↦ Faulting.safe_pure _) h
  obtain ⟨stored, refused, rest, memory, hstores, hstored, hrefused, rfl⟩ :=
    exists_of_enterService_error henter
  exact ⟨first_of_due hdue, ⟨stored, refused, rest, hstores, hstored, hrefused⟩, rfl⟩

/-- Where the program counter can be pushed, the routine is entered. -/
theorem exists_step_enters (hdue : m.interrupts.next? = some source) {memory : Bus}
    (h : writeAll (wordStores (m.control.sp - 2) m.control.pc) m.memory = .ok () memory) :
    ∃ m', step m = .ok instructionBytes m' ∧ m.Enters source m' := by
  obtain ⟨t, hpush⟩ : ∃ t, push m.control.pc (m.acknowledge source) = .ok () t :=
    ⟨_, push_of_stored h⟩
  have henter : enterService source m = .ok () (t.complete ⟨.keep, source.routine⟩) := by
    rw [enterService_apply]
    exact Faulting.bind_of_ok (Faulting.bind_of_ok hpush)
  have hstep : step m = .ok instructionBytes (t.complete ⟨.keep, source.routine⟩) := by
    rw [step_of_due hdue]
    exact Faulting.bind_of_ok henter
  exact ⟨_, hstep, enters_of_step_ok hdue hstep⟩

end

/-! ## What becomes of an interrupt -/

section

variable {m : Machine} {source : InterruptSource}

/-- The next step deals with the source: it enters the routine, or it faults on the return address
and gives the source up. -/
def Dispatches (m : Machine) (source : InterruptSource) : Prop :=
  (∃ length m', step m = .ok length m' ∧ m.Enters source m') ∨
    ∃ f m', step m = .error f m' ∧ m.GivesUp source f m'

theorem dispatches_of_due (hdue : m.interrupts.next? = some source) : m.Dispatches source := by
  cases hstep : step m with
  | ok length m' => exact .inl ⟨length, m', hstep, enters_of_step_ok hdue hstep⟩
  | error f m' => exact .inr ⟨f, m', hstep, givesUp_of_step_error hdue hstep⟩

/-- A step that does not deal with a source leaves it pending. -/
theorem isPending_stepped (h : m.interrupts.isPending source = true)
    (hdue : m.interrupts.next? ≠ some source) : m.stepped.interrupts.isPending source = true := by
  cases hnext : m.interrupts.next? with
  | some other =>
    rw [interrupts_stepped_of_due hnext, InterruptController.isPending_enter]
    refine ⟨h, ?_⟩
    rintro rfl
    exact hdue hnext
  | none =>
    rcases interrupts_stepped_of_not_due hnext with hsame | ⟨-, -, hfinish⟩
    · rwa [hsame]
    · rw [hfinish]
      exact h

/-- What is pending at the start of a run is pending at its end, or some step has dealt with it. -/
theorem isPending_after_or_dispatches (h : m.interrupts.isPending source = true)
    (stimuli : List Stimulus) :
    (m.after stimuli).interrupts.isPending source = true ∨
      ∃ between rest, stimuli = between ++ .step :: rest ∧ (m.after between).Dispatches source := by
  induction stimuli generalizing m with
  | nil => exact .inl h
  | cons stimulus stimuli ih =>
    -- if the source is still pending after the first stimulus, the rest of the run decides
    have hlater (hpending : (m.react stimulus).interrupts.isPending source = true) :
        (m.after (stimulus :: stimuli)).interrupts.isPending source = true ∨
          ∃ between rest, stimulus :: stimuli = between ++ .step :: rest ∧
            (m.after between).Dispatches source := by
      refine (ih hpending).imp_right fun ⟨between, rest, hsplit, hdispatches⟩ ↦ ?_
      exact ⟨stimulus :: between, rest, congrArg (stimulus :: ·) hsplit, hdispatches⟩
    cases stimulus with
    | raise other => exact hlater (InterruptController.isPending_raise.mpr (.inl h))
    | step =>
      by_cases hdue : m.interrupts.next? = some source
      · exact .inr ⟨[], stimuli, rfl, dispatches_of_due hdue⟩
      · exact hlater (isPending_stepped h hdue)

/-- **An interrupt stays pending until a step deals with it**, and that step enters the routine
unless the stack cannot take the return address. -/
theorem raised_pending_or_dispatched (m : Machine) (before since : List Stimulus)
    (source : InterruptSource) :
    (m.after (before ++ .raise source :: since)).interrupts.isPending source = true ∨
      ∃ between rest, since = between ++ .step :: rest ∧
        (m.after (before ++ .raise source :: between)).Dispatches source := by
  have hraised : ((m.after before).raise source).interrupts.isPending source = true :=
    InterruptController.isPending_raise.mpr (.inr rfl)
  simp only [after_append, after_cons]
  exact isPending_after_or_dispatches hraised since

/-- A machine without memory, and so without a stack. -/
private def stackless : Machine where
  memory := ⟨"memory", []⟩
  ports := ⟨"io", []⟩

/-- An interrupt can be lost without any step that succeeds. -/
theorem not_raised_pending_or_entered :
    ¬∀ (m : Machine) (before since : List Stimulus) (source : InterruptSource),
      (m.after (before ++ .raise source :: since)).interrupts.isPending source = true ∨
        ∃ between rest, since = between ++ .step :: rest ∧
          ∃ length m', step (m.after (before ++ .raise source :: between)) = .ok length m' ∧
            (m.after (before ++ .raise source :: between)).Enters source m' := by
  intro h
  rcases h stackless [] [.step] .secondTimer with
    hpending | ⟨between, rest, hsplit, length, m', hok, -⟩
  · have hlost : (stackless.after [.raise .secondTimer, .step]).interrupts.isPending .secondTimer
        = false := rfl
    exact Bool.false_ne_true (hlost.symm.trans hpending)
  · cases between with
    | nil =>
      have hfault : step (stackless.raise .secondTimer) = .error (.unmappedAddress 0x1FFE)
          (stackless.raise .secondTimer).stepped := rfl
      exact nomatch hfault.symm.trans hok
    | cons stimulus between => cases between <;> cases hsplit

end

/-! ## The service of an interrupt -/

section

open Bus (writeAll)

variable {m m' : Machine} {source : InterruptSource} {length : UInt8} {p : UInt16}

/-! ### While a routine is in service -/

theorem interrupts_stepped_of_servicing (hservicing : m.interrupts.servicing = true)
    (hhalts : ¬m.Halts) : m.stepped.interrupts = m.interrupts := by
  have hdue := InterruptController.next?_of_servicing hservicing
  rcases interrupts_stepped_of_not_due hdue with hsame | ⟨hhalts', -⟩
  · exact hsame
  · exact absurd hhalts' hhalts

/-- One routine stays in service for the length of a run. -/
structure Serves (m : Machine) (stimuli : List Stimulus) : Prop where
  /-- The routine is in service at the end. -/
  servicing : (m.after stimuli).interrupts.servicing = true
  /-- No step enters a routine, and none takes anything from what is pending. -/
  steps : m.Along (fun n ↦ n.interrupts.next? = none ∧ n.stepped.interrupts = n.interrupts) stimuli
  /-- What was pending, or was raised, is pending at the end. -/
  pending : ∀ source, (m.after stimuli).interrupts.isPending source = true ↔
    m.interrupts.isPending source = true ∨ .raise source ∈ stimuli

/-- Only a halt ends the service. -/
theorem serves_of_along (hservicing : m.interrupts.servicing = true) {stimuli : List Stimulus}
    (h : m.Along (¬·.Halts) stimuli) : m.Serves stimuli := by
  induction stimuli generalizing m with
  | nil => exact ⟨hservicing, trivial, fun source ↦ by simp⟩
  | cons stimulus stimuli ih =>
    cases stimulus with
    | raise raised =>
      obtain ⟨hend, hsteps, hpending⟩ := ih (m := m.raise raised) hservicing h.2
      refine ⟨hend, ⟨nofun, hsteps⟩, fun source ↦ ?_⟩
      rw [after_cons, react, hpending, raise, InterruptController.isPending_raise, List.mem_cons,
        or_assoc, Stimulus.raise.injEq, eq_comm (a := source)]
    | step =>
      have hsame := interrupts_stepped_of_servicing hservicing (h.1 rfl)
      have hdue := InterruptController.next?_of_servicing hservicing
      obtain ⟨hend, hsteps, hpending⟩ := ih (m := m.stepped) (hsame ▸ hservicing) h.2
      refine ⟨hend, ⟨fun _ ↦ ⟨hdue, hsame⟩, hsteps⟩, fun source ↦ ?_⟩
      rw [after_cons, react, hpending, hsame, List.mem_cons]
      simp

/-! ### The halt -/

theorem step_of_halts (hservicing : m.interrupts.servicing = true) (hhalts : m.Halts)
    (htop : m.topWord = .ok p) :
    step m = .ok instructionBytes { m with
      control := { m.control with pc := p, sp := m.control.sp + 2 }
      interrupts := m.interrupts.finish.2 } := by
  obtain ⟨inst, ⟨hdue, hinst⟩, hform⟩ := hhalts
  have hperform : perform inst.operation m = .ok ⟨.keep, p⟩
      ({ m with interrupts := m.interrupts.finish.2 }.setSp (m.control.sp + 2)) := by
    have hoperation : inst.operation = .halt := by rw [Instruction.operation, hform]
    have hpop := pop_of_topWord (m := { m with interrupts := m.interrupts.finish.2 }) htop
    rw [hoperation]
    change halt m = _
    rw [halt_of_servicing hservicing]
    exact Faulting.bind_of_ok hpop
  have hexecute : execute inst m = .ok () { m with
      control := { m.control with pc := p, sp := m.control.sp + 2 }
      interrupts := m.interrupts.finish.2 } := Faulting.bind_of_ok hperform
  rw [step_of_nextInstruction_ok hdue hinst, Faulting.bind_of_ok hexecute]
  rfl

/-- The next step of `m'` is a halt, and the stack is as the entry from `m` left it. -/
structure HandsBack (m' m : Machine) : Prop where
  halts : m'.Halts
  sp : m'.control.sp = m.control.sp - 2
  low : m'.memoryByte (m.control.sp - 2) = .ok m.control.pc.toUInt8
  high : m'.memoryByte (m.control.sp - 1) = .ok (m.control.pc >>> 8).toUInt8

theorem HandsBack.step_eq (h : m'.HandsBack m) (hservicing : m'.interrupts.servicing = true) :
    step m' = .ok instructionBytes { m' with
      control := { m'.control with pc := m.control.pc, sp := m.control.sp }
      interrupts := m'.interrupts.finish.2 } := by
  have hsp : m.control.sp - 2 + 2 = m.control.sp := UInt16.sub_add_cancel _ _
  have hnext : m.control.sp - 2 + 1 = m.control.sp - 1 := by grind
  have htop : m'.topWord = .ok m.control.pc := by
    refine topWord_of_bytes ?_ ?_
    · rw [h.sp]
      exact h.low
    · rw [h.sp, hnext]
      exact h.high
  have hstep := step_of_halts hservicing h.halts htop
  rwa [h.sp, hsp] at hstep

/-! ### From the entry to the step after the halt -/

/-- **An interrupt is served without another, and the program goes on where it came.** -/
theorem service_resumes (hidle : m.interrupts.servicing = false)
    (hpending : m.interrupts.isPending source = true) (hstep : step m = .ok length m') :
    ∃ first, m.Enters first m' ∧ m'.interrupts.servicing = true ∧
      (∀ other, m'.interrupts.isPending other = true ↔
        m.interrupts.isPending other = true ∧ first ≠ other) ∧
      -- no instruction is fetched, and whatever the memory holds, the same happens
      (∀ inst, ¬m.Performs inst) ∧
      (∀ memory : Bus, memory.blank = m.memory.blank →
        ∃ t, step { m with memory } = .ok length t ∧ Enters { m with memory } first t) ∧
      ∀ stimuli, m'.Along (¬·.Halts) stimuli → m'.Serves stimuli ∧
        ((m'.after stimuli).HandsBack m →
          ∃ resumed, step (m'.after stimuli) = .ok instructionBytes resumed ∧
            resumed.control.pc = m.control.pc ∧ resumed.control.sp = m.control.sp ∧
            resumed.interrupts.servicing = false ∧
            resumed.interrupts.pending = (m'.after stimuli).interrupts.pending ∧
            ∀ other, resumed.interrupts.isPending other = true →
              ∃ next t, step resumed = .ok instructionBytes t ∧ resumed.Enters next t) := by
  obtain ⟨first, hdue⟩ := InterruptController.exists_next? hidle hpending
  have henters := enters_of_step_ok hdue hstep
  have hlength : length = instructionBytes := (step_ok_cases hstep).1
  refine ⟨first, henters, henters.servicing, henters.isPending_iff, fun inst hperforms ↦ ?_,
    fun memory hblank ↦ ?_, fun stimuli hrun ↦ ?_⟩
  · rw [hperforms.1] at hdue
    cases hdue
  · obtain ⟨memory', hpushed⟩ := Bus.exists_writeAll_ok_of_blank hblank henters.pushed
    rw [hlength]
    exact exists_step_enters (m := { m with memory }) hdue hpushed
  · have hserves := serves_of_along henters.servicing hrun
    refine ⟨hserves, fun hback ↦ ⟨_, hback.step_eq hserves.servicing, rfl, rfl, rfl, rfl, ?_⟩⟩
    -- the next entry pushes the same bytes to the same devices as the first
    intro other hother
    obtain ⟨next, hdue'⟩ := InterruptController.exists_next? rfl hother
    have hblank : (m'.after stimuli).memory.blank = m.memory.blank :=
      (m'.blank_memory_after stimuli).trans (Bus.blank_of_writeAll henters.pushed)
    obtain ⟨memory', hpushed⟩ := Bus.exists_writeAll_ok_of_blank hblank henters.pushed
    obtain ⟨t, hstep', henters'⟩ := exists_step_enters hdue' hpushed
    exact ⟨next, t, hstep', henters'⟩

/-- A machine whose memory holds a routine of one instruction, `HLT`, and room for one word on the
stack. The routine is due. -/
private def interrupted : Machine where
  control := { pc := 0x1000, sp := 0x1806 }
  interrupts := { pending := InterruptSource.secondTimer.bit }
  memory := ⟨"memory", [.store (CellStore.put { range := .between 0x1802 0x1806 } 0x1803 0x02)]⟩
  ports := ⟨"io", []⟩

theorem service_resumes_setButton :
    ∃ resumed t, step (interrupted.stepped.raise .setButton) = .ok instructionBytes resumed ∧
      resumed.control.pc = 0x1000 ∧ resumed.control.sp = 0x1806 ∧
      step resumed = .ok instructionBytes t ∧ resumed.Enters .setButton t := by
  have hstep : step interrupted = .ok instructionBytes interrupted.stepped := rfl
  have hpending : interrupted.interrupts.isPending .secondTimer = true := rfl
  obtain ⟨first, -, -, -, -, -, hrun⟩ := service_resumes rfl hpending hstep
  have hhalts : (interrupted.stepped.raise .setButton).Halts :=
    ⟨⟨0x0002, .hlt⟩, ⟨rfl, rfl⟩, rfl⟩
  have hback : (interrupted.stepped.raise .setButton).HandsBack interrupted :=
    ⟨hhalts, rfl, rfl, rfl⟩
  obtain ⟨-, hresumes⟩ := hrun [.raise .setButton] ⟨nofun, trivial⟩
  obtain ⟨resumed, hhalt, hpc, hsp, -, hleft, hnext⟩ := hresumes hback
  have hset : resumed.interrupts.isPending .setButton = true := by
    rw [InterruptController.isPending, hleft]
    rfl
  obtain ⟨next, t, hstep', henters⟩ := hnext .setButton hset
  have hfirst := henters.first.pending
  rw [InterruptController.isPending, hleft] at hfirst
  cases next with
  | setButton => exact ⟨resumed, t, hhalt, hpc, hsp, hstep', henters⟩
  | _ => cases hfirst

end

end CalcWatch.Machine
