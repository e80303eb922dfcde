import CalcWatch.Proofs.Runs.Stimuli
import CalcWatch.Runner.TimedRun
import Mathlib.Algebra.Order.Floor.Div
import Mathlib.Data.Nat.Basic
import Mathlib.Data.Nat.ModEq

/-!
# Runs in batches and runs with a timer

A host asks for many steps at once, for some steps and then for some more, or for steps with a tick
of the timer between them. All of these come to the same steps.

## Runs in batches

A run takes steps until it has taken as many as it was asked for, or until one fails. What it is
compared with here is the relation `Takes`: so many steps, one after the other, none of which fails.
A run either takes all of its steps, or it takes some and stops at the next one, and the machine it
leaves is the one that this step left. From this it follows that a run may be cut in two at any
place, which is what a host does that asks for its steps in batches.

## Runs with a timer are plain runs

Between two ticks of the timer, a timed run takes steps and nothing else. So without a period it is
a plain run, and with one it is a sequence of plain runs with a tick between any two of them. The
induction is on the steps that remain; a stretch begins wherever the timer is due, and the first one
begins without a tick. A failing step never moves the program counter, which is why the counter that
was noted before the step is the one that the machine is left with.
-/

namespace CalcWatch.Machine

/-! ## Runs in batches -/

section

/-! ### Outcomes -/

/-- The outcome with more steps completed before it. -/
def RunOutcome.plus (outcome : RunOutcome) (earlier : ℕ) : RunOutcome :=
  ⟨earlier + outcome.steps, outcome.fault⟩

theorem RunOutcome.plus_zero (outcome : RunOutcome) : outcome.plus 0 = outcome := by
  rw [plus, Nat.zero_add]

theorem RunOutcome.plus_plus (outcome : RunOutcome) (a b : ℕ) :
    (outcome.plus a).plus b = outcome.plus (b + a) := by
  rw [plus, plus, plus, Nat.add_assoc]

/-! ### The first step of a run -/

/-- Steps that were taken earlier are only counted. -/
theorem runFrom_eq (taken more : ℕ) (m : Machine) :
    runFrom taken more m = ((run more m).1.plus taken, (run more m).2) := by
  rw [run]
  induction more generalizing taken m with
  | zero => rfl
  | succ more ih =>
    rw [runFrom, runFrom]
    cases step m with
    | ok length m' =>
      simp only []
      rw [ih (taken + 1), ih (0 + 1)]
      simp only [RunOutcome.plus, Nat.zero_add, Nat.add_assoc]
    | error f m' => rfl

theorem run_succ (more : ℕ) (m : Machine) :
    run (more + 1) m = match step m with
      | .ok _ m' => ((run more m').1.plus 1, (run more m').2)
      | .error f m' => (⟨0, some f⟩, m') := by
  rw [run, runFrom]
  cases step m with
  | ok length m' => exact runFrom_eq 1 more m'
  | error f m' => rfl

theorem run_succ_of_ok {length : UInt8} {m t : Machine} (h : step m = .ok length t) (more : ℕ) :
    run (more + 1) m = ((run more t).1.plus 1, (run more t).2) := by
  rw [run_succ, h]

theorem run_succ_of_error {f : Fault} {m m' : Machine} (h : step m = .error f m') (more : ℕ) :
    run (more + 1) m = (⟨0, some f⟩, m') := by
  rw [run_succ, h]

/-! ### Steps that do not fail -/

/-- So many steps lead from one machine to another, and none of them fails. -/
inductive Takes : ℕ → Machine → Machine → Prop
  /-- No step at all. -/
  | refl (m : Machine) : Takes 0 m m
  /-- A step before the others. -/
  | head {count : ℕ} {length : UInt8} {m t m' : Machine} (h : step m = .ok length t)
    (rest : Takes count t m') : Takes (count + 1) m m'

variable {count limit : ℕ} {m t m' : Machine}

/-- A run counts the steps that do not fail, and goes on after them. -/
theorem Takes.run_add (h : Takes count m t) (more : ℕ) :
    run (count + more) m = ((run more t).1.plus count, (run more t).2) := by
  induction h with
  | refl m => rw [Nat.zero_add, RunOutcome.plus_zero]
  | head hstep rest ih =>
    rw [Nat.add_right_comm, run_succ_of_ok hstep, ih, RunOutcome.plus_plus, Nat.add_comm 1]

theorem Takes.run_eq (h : Takes count m t) : run count m = (⟨count, none⟩, t) := h.run_add 0

/-- A run takes all of its steps, or it stops at one that fails. -/
theorem takes_or_stops (limit : ℕ) (m : Machine) :
    (∃ m', Takes limit m m') ∨
      ∃ count t f m', count < limit ∧ Takes count m t ∧ step t = .error f m' := by
  induction limit generalizing m with
  | zero => exact .inl ⟨m, .refl m⟩
  | succ limit ih =>
    cases hstep : step m with
    | error f m' => exact .inr ⟨0, m, f, m', limit.succ_pos, .refl m, hstep⟩
    | ok length next =>
      rcases ih next with ⟨m', hall⟩ | ⟨count, t, f, m', hlt, htakes, hfails⟩
      · exact .inl ⟨m', .head hstep hall⟩
      · exact .inr ⟨count + 1, t, f, m', Nat.succ_lt_succ hlt, .head hstep htakes, hfails⟩

/-- A run that meets a failing step is over, however many steps are left. -/
theorem Takes.run_of_error {f : Fault} (h : Takes count m t) (hfails : step t = .error f m')
    (hlt : count < limit) : run limit m = (⟨count, some f⟩, m') := by
  obtain ⟨more, rfl⟩ := Nat.exists_eq_add_of_lt hlt
  rw [Nat.add_assoc, h.run_add, run_succ_of_error hfails]
  rfl

theorem steps_run_of_fault_eq_none (h : (run limit m).1.fault = none) :
    (run limit m).1.steps = limit := by
  rcases takes_or_stops limit m with ⟨m', hall⟩ | ⟨count, t, f, m', hlt, htakes, hfails⟩
  · rw [hall.run_eq]
  · rw [htakes.run_of_error hfails hlt] at h
    cases h

/-! ### Runs that are cut in two -/

/-- **Runs in batches.** A run may be cut in two anywhere: the second part begins where the first
one ended, unless that has failed, and the counts add up. A run has taken all of its steps exactly
if nothing failed. If something did, it is the step after those that were counted, and the machine
is left as this step has left it. -/
theorem run_in_batches (m : Machine) (limit : ℕ) :
    (∀ more, run (limit + more) m =
      if (run limit m).1.fault = none then
        ((run more (run limit m).2).1.plus (run limit m).1.steps, (run more (run limit m).2).2)
      else run limit m) ∧
    ((run limit m).1.fault = none ↔ (run limit m).1.steps = limit) ∧
    ((run limit m).1.fault = none → Takes limit m (run limit m).2) ∧
    ∀ f, (run limit m).1.fault = some f → (run limit m).1.steps < limit ∧
      ∃ t, Takes (run limit m).1.steps m t ∧ step t = .error f (run limit m).2 := by
  rcases takes_or_stops limit m with ⟨m', hall⟩ | ⟨count, t, f, m', hlt, htakes, hfails⟩
  · rw [hall.run_eq]
    exact ⟨fun more ↦ hall.run_add more, iff_of_true rfl rfl, fun _ ↦ hall, nofun⟩
  · have hrun : ∀ more, run (limit + more) m = (⟨count, some f⟩, m') :=
      fun more ↦ htakes.run_of_error hfails (Nat.lt_add_right more hlt)
    rw [htakes.run_of_error hfails hlt]
    refine ⟨hrun, iff_of_false nofun (Nat.ne_of_lt hlt), nofun, ?_⟩
    rintro _ ⟨⟩
    exact ⟨hlt, t, htakes, hfails⟩

end

/-! ## Runs with a timer are plain runs -/

section

/-! ### Reports -/

/-- How a run is reported that ended like this: a fault comes with the number of completed steps and
with the program counter that the machine is left with. -/
def reported (ended : RunOutcome × Machine) : Option StepFailure × Machine :=
  (ended.1.fault.map fun fault ↦ ⟨ended.1.steps, ended.2.control.pc, fault⟩, ended.2)

variable {m : Machine} {every : Option UInt32}

/-! ### One stretch -/

theorem timerDue_zero (every : Option UInt32) : timerDue every 0 = false := by
  cases every <;> simp [timerDue]

theorem timerDue_of_off {every : Option UInt32} (h : every = none ∨ every = some 0) (taken : ℕ) :
    timerDue every taken = false := by
  rcases h with rfl | rfl <;> rfl

theorem tick_of_not_due {taken : ℕ} (h : timerDue every taken = false) (m : Machine) :
    m.tick every taken = m := by
  rw [tick, h, if_neg Bool.false_ne_true]

theorem tick_of_due {taken : ℕ} (h : timerDue every taken = true) (m : Machine) :
    m.tick every taken = m.raise .secondTimer := by
  rw [tick, if_pos h]

theorem runTimedFrom_succ (every : Option UInt32) (taken more : ℕ) (m : Machine) :
    runTimedFrom every taken (more + 1) m = match step (m.tick every taken) with
      | .ok _ m' => runTimedFrom every (taken + 1) more m'
      | .error f m' => reported (⟨taken, some f⟩, m') := by
  rw [runTimedFrom]
  cases hstep : step (m.tick every taken) with
  | ok length m' => rfl
  | error f m' =>
    have hpc := (registers_pc_of_step_error hstep).2
    simp only [reported, Option.map_some, hpc]

/-- **One stretch.** From one tick up to where the next may be due, a timed run is a plain run of
the ticked machine; if this does not fail, the timed run goes on after it. -/
theorem runTimedFrom_add {length : ℕ} (hlength : 0 < length) (taken : ℕ)
    (hquiet : ∀ t, taken < t → t < taken + length → timerDue every t = false) (more : ℕ)
    (m : Machine) :
    runTimedFrom every taken (length + more) m =
      if (run length (m.tick every taken)).1.fault = none then
        runTimedFrom every (taken + length) more (run length (m.tick every taken)).2
      else
        reported ((run length (m.tick every taken)).1.plus taken,
          (run length (m.tick every taken)).2) := by
  obtain ⟨length, rfl⟩ := Nat.exists_eq_add_one.mpr hlength
  induction length generalizing taken m with
  | zero =>
    rw [Nat.add_comm, runTimedFrom_succ, run_succ]
    cases step (m.tick every taken) <;> rfl
  | succ length ih =>
    rw [Nat.add_right_comm, runTimedFrom_succ, run_succ]
    cases step (m.tick every taken) with
    | ok _ m' =>
      -- no tick is due after the first step, so what follows is a stretch of its own
      have htick : m'.tick every (taken + 1) = m' :=
        tick_of_not_due (hquiet (taken + 1) (by omega) (by omega)) m'
      have hrest := ih (taken + 1) m' (Nat.succ_pos length)
        fun t hlow hhigh ↦ hquiet t (by omega) (by omega)
      have hcount : taken + 1 + (length + 1) = taken + (length + 1 + 1) := by omega
      rw [htick, hcount] at hrest
      simp only [RunOutcome.plus_plus]
      exact hrest
    | error f m' => rfl

/-- Without a tick there is only one stretch. -/
theorem runTimed_of_quiet (hquiet : ∀ t, timerDue every t = false) (steps : ℕ) (m : Machine) :
    m.runTimed every steps = reported (run steps m) := by
  cases steps with
  | zero => rfl
  | succ steps =>
    have hstretch := runTimedFrom_add (Nat.succ_pos steps) 0 (fun t _ _ ↦ hquiet t) 0 m
    rw [tick_of_not_due (hquiet 0), Nat.zero_add] at hstretch
    rw [runTimed, ← Nat.add_zero (steps + 1), hstretch]
    split
    · rename_i hfault
      rw [runTimedFrom, reported, hfault]
      rfl
    · rw [RunOutcome.plus_zero]

/-! ### Stretch after stretch -/

/-- Runs of `period` steps, or of those that remain if they are fewer, with the timer raised after
each of them while steps remain and nothing has failed. -/
def runByTimer (period remaining : ℕ) (m : Machine) : RunOutcome × Machine :=
  let ended := run (min period remaining) m
  if ended.1.fault = none ∧ 0 < ended.1.steps ∧ ended.1.steps < remaining then
    let rest := runByTimer period (remaining - ended.1.steps) (ended.2.raise .secondTimer)
    (rest.1.plus ended.1.steps, rest.2)
  else ended
termination_by remaining
decreasing_by
  rename_i hgoes
  exact Nat.sub_lt (hgoes.2.1.trans hgoes.2.2) hgoes.2.1

section

variable {period remaining : ℕ}

theorem runByTimer_of_le (h : remaining ≤ period) (m : Machine) :
    runByTimer period remaining m = run remaining m := by
  rw [runByTimer, Nat.min_eq_right h, if_neg]
  rintro ⟨hfault, -, hlt⟩
  exact hlt.ne (steps_run_of_fault_eq_none hfault)

theorem runByTimer_of_lt (hperiod : 0 < period) (h : period < remaining) (m : Machine) :
    runByTimer period remaining m =
      if (run period m).1.fault = none then
        ((runByTimer period (remaining - period)
            ((run period m).2.raise .secondTimer)).1.plus period,
          (runByTimer period (remaining - period) ((run period m).2.raise .secondTimer)).2)
      else run period m := by
  rw [runByTimer, Nat.min_eq_left h.le]
  by_cases hfault : (run period m).1.fault = none
  · have hsteps := steps_run_of_fault_eq_none hfault
    rw [if_pos ⟨hfault, hsteps.symm ▸ hperiod, hsteps.symm ▸ h⟩, if_pos hfault, hsteps]
  · rw [if_neg fun hall ↦ hfault hall.1, if_neg hfault]

end

variable {period : UInt32}

theorem toNat_pos (hperiod : period ≠ 0) : 0 < period.toNat :=
  Nat.pos_of_ne_zero fun h ↦ hperiod (UInt32.toNat_inj.mp h)

theorem timerDue_some (hperiod : period ≠ 0) (taken : ℕ) :
    timerDue (some period) taken = true ↔ taken ≠ 0 ∧ period.toNat ∣ taken := by
  simp [timerDue, hperiod, Nat.dvd_iff_mod_eq_zero]

theorem timerDue_eq_false_of_between (hperiod : period ≠ 0) {taken t : ℕ}
    (hdvd : period.toNat ∣ taken) (hlow : taken < t) (hhigh : t < taken + period.toNat) :
    timerDue (some period) t = false := by
  rw [← Bool.not_eq_true, timerDue_some hperiod]
  rintro ⟨-, ht⟩
  have hle := Nat.le_of_dvd (Nat.sub_pos_of_lt hlow) (Nat.dvd_sub ht hdvd)
  omega

/-- From a multiple of the period on, a timed run is what its stretches are one after the other. -/
theorem runTimedFrom_some (hperiod : period ≠ 0) {remaining taken : ℕ} (hremaining : 0 < remaining)
    (hdvd : period.toNat ∣ taken) (m : Machine) :
    runTimedFrom (some period) taken remaining m =
      reported ((runByTimer period.toNat remaining (m.tick (some period) taken)).1.plus taken,
        (runByTimer period.toNat remaining (m.tick (some period) taken)).2) := by
  have hpos := toNat_pos hperiod
  induction remaining using Nat.strong_induction_on generalizing taken m with
  | _ remaining ih =>
    rcases le_or_gt remaining period.toNat with hlast | hmore
    · have hstretch := runTimedFrom_add hremaining taken (fun t hlow hhigh ↦
        timerDue_eq_false_of_between hperiod hdvd hlow (by omega)) 0 m
      rw [Nat.add_zero] at hstretch
      rw [hstretch, runByTimer_of_le hlast]
      split
      · rename_i hfault
        rw [runTimedFrom, reported, RunOutcome.plus, hfault]
        rfl
      · rfl
    · have hstretch := runTimedFrom_add hpos taken (fun t hlow hhigh ↦
        timerDue_eq_false_of_between hperiod hdvd hlow hhigh) (remaining - period.toNat) m
      rw [Nat.add_sub_cancel' hmore.le] at hstretch
      rw [hstretch, runByTimer_of_lt hpos hmore]
      split
      · -- the next stretch begins with a tick
        have hdue : timerDue (some period) (taken + period.toNat) = true :=
          (timerDue_some hperiod _).mpr ⟨by omega, Nat.dvd_add_self_right.mpr hdvd⟩
        rw [ih (remaining - period.toNat) (by omega) (by omega) (Nat.dvd_add_self_right.mpr hdvd),
          tick_of_due hdue, RunOutcome.plus_plus]
      · rfl

/-! ### What the timer does

A timed run is also a run as any host might drive it, and its stimuli show how often the timer was
raised, and when. -/

/-- The stimuli before and of the step that follows some others. -/
def turn (every : Option UInt32) (taken : ℕ) : List Stimulus :=
  if timerDue every taken then [.raise .secondTimer, .step] else [.step]

/-- The stimuli of a timed run, which ends with a step that fails. -/
def stimuliFrom (every : Option UInt32) (taken : ℕ) : ℕ → Machine → List Stimulus
  | 0, _ => []
  | more + 1, m =>
    turn every taken ++
      match step (m.tick every taken) with
      | .ok _ m' => stimuliFrom every (taken + 1) more m'
      | .error _ _ => []

def stimuli (m : Machine) (every : Option UInt32) (steps : ℕ) : List Stimulus :=
  stimuliFrom every 0 steps m

theorem turn_zero (every : Option UInt32) : turn every 0 = [.step] := by
  rw [turn, timerDue_zero, if_neg Bool.false_ne_true]

theorem after_turn (taken : ℕ) (m : Machine) :
    m.after (turn every taken) = (m.tick every taken).stepped := by
  rw [turn, tick]
  split <;> rfl

/-- A timed run is the run of its stimuli. -/
theorem after_stimuliFrom (every : Option UInt32) (taken more : ℕ) (m : Machine) :
    (runTimedFrom every taken more m).2 = m.after (stimuliFrom every taken more m) := by
  induction more generalizing taken m with
  | zero => rfl
  | succ more ih =>
    rw [runTimedFrom_succ, stimuliFrom, after_append, after_turn]
    cases hstep : step (m.tick every taken) with
    | ok length m' =>
      rw [stepped_of_ok hstep]
      exact ih (taken + 1) m'
    | error f m' =>
      rw [stepped_of_error hstep]
      rfl

/-- If nothing fails, the stimuli do not depend on the machine. -/
theorem stimuliFrom_of_ok {taken more : ℕ} (h : (runTimedFrom every taken more m).1 = none) :
    stimuliFrom every taken more m = (List.range' taken more).flatMap (turn every) := by
  induction more generalizing taken m with
  | zero => rfl
  | succ more ih =>
    rw [runTimedFrom_succ] at h
    rw [stimuliFrom, List.range'_succ, List.flatMap_cons]
    cases hstep : step (m.tick every taken) with
    | ok length m' =>
      rw [hstep] at h
      exact congrArg (turn every taken ++ ·) (ih h)
    | error f m' =>
      rw [hstep] at h
      cases h

/-- The stimuli of so many turns from the first one on. -/
def turns (every : Option UInt32) (steps : ℕ) : List Stimulus :=
  (List.range steps).flatMap (turn every)

theorem stimuli_of_ok {steps : ℕ} (h : (m.runTimed every steps).1 = none) :
    m.stimuli every steps = turns every steps := by
  rw [stimuli, stimuliFrom_of_ok h, turns, List.range_eq_range']

theorem turns_succ (every : Option UInt32) (steps : ℕ) :
    turns every (steps + 1) = turns every steps ++ turn every steps := by
  rw [turns, List.range_succ, List.flatMap_append, List.flatMap_singleton, turns]

theorem count_step_turns (every : Option UInt32) (steps : ℕ) :
    (turns every steps).count .step = steps := by
  induction steps with
  | zero => rfl
  | succ steps ih =>
    have hturn : (turn every steps).count .step = 1 := by
      rw [turn]
      split <;> rfl
    rw [turns_succ, List.count_append, ih, hturn]

/-- The timer is raised once for every multiple of the period that has steps before it and behind
it. -/
theorem count_raise_turns (hperiod : period ≠ 0) (steps : ℕ) :
    (turns (some period) (steps + 1)).count (.raise .secondTimer) = steps / period.toNat := by
  induction steps with
  | zero =>
    rw [turns_succ, turn_zero, Nat.zero_div]
    rfl
  | succ steps ih =>
    have hturn : (turn (some period) (steps + 1)).count (.raise .secondTimer)
        = if period.toNat ∣ steps + 1 then 1 else 0 := by
      have hdue := timerDue_some hperiod (steps + 1)
      rw [turn]
      split <;> split <;> simp_all
    rw [turns_succ, List.count_append, ih, hturn, Nat.succ_div]

theorem head?_turns (every : Option UInt32) (steps : ℕ) :
    (turns every (steps + 1)).head? = some .step := by
  rw [turns, List.range_succ_eq_map, List.flatMap_cons, turn_zero]
  rfl

theorem getLast?_turns (every : Option UInt32) (steps : ℕ) :
    (turns every (steps + 1)).getLast? = some .step := by
  have hturn : (turn every steps).getLast? = some .step := by
    rw [turn]
    split <;> rfl
  rw [turns_succ, List.getLast?_append, hturn]
  rfl

/-! ### The timed run -/

theorem reported_eq_none_iff {steps : ℕ} :
    (reported (run steps m)).1 = none ↔ (run steps m).1 = ⟨steps, none⟩ := by
  rw [reported, Option.map_eq_none_iff]
  constructor
  · intro hfault
    calc (run steps m).1 = ⟨(run steps m).1.steps, (run steps m).1.fault⟩ := rfl
      _ = ⟨steps, none⟩ := by rw [steps_run_of_fault_eq_none hfault, hfault]
  · intro hcompleted
    rw [hcompleted]

theorem runTimed_some (hperiod : period ≠ 0) (steps : ℕ) (m : Machine) :
    m.runTimed (some period) steps = reported (runByTimer period.toNat steps m) := by
  rcases Nat.eq_zero_or_pos steps with rfl | hsteps
  · rw [runByTimer_of_le (Nat.zero_le _)]
    rfl
  · rw [runTimed, runTimedFrom_some hperiod hsteps (Nat.dvd_zero _),
      tick_of_not_due (timerDue_zero _), RunOutcome.plus_zero]

/-- **Timed runs.** Without a period a timed run is a plain run, and it ends without a failure
exactly if all steps were completed. With a period it is a sequence of plain runs with a tick
between any two of them; if nothing fails, the timer was raised after every full period, but never
before the first step nor after the last. -/
theorem runTimed_eq_reported (m : Machine) (steps : ℕ) :
    (∀ every, every = none ∨ every = some 0 →
      m.runTimed every steps = reported (run steps m) ∧
        ((m.runTimed every steps).1 = none ↔ (run steps m).1 = ⟨steps, none⟩)) ∧
    ∀ period : UInt32, period ≠ 0 →
      m.runTimed (some period) steps = reported (runByTimer period.toNat steps m) ∧
      (m.runTimed (some period) steps).2 = m.after (m.stimuli (some period) steps) ∧
      (1 ≤ steps → (m.runTimed (some period) steps).1 = none →
        (m.stimuli (some period) steps).count .step = steps ∧
        (m.stimuli (some period) steps).count (.raise .secondTimer)
          = steps ⌈/⌉ period.toNat - 1 ∧
        (m.stimuli (some period) steps).head? = some .step ∧
        (m.stimuli (some period) steps).getLast? = some .step) := by
  refine ⟨fun every hoff ↦ ?_, fun period hperiod ↦ ⟨runTimed_some hperiod steps m,
    after_stimuliFrom (some period) 0 steps m, fun hsteps hok ↦ ?_⟩⟩
  · have hplain := runTimed_of_quiet (timerDue_of_off hoff) steps m
    exact ⟨hplain, hplain ▸ reported_eq_none_iff⟩
  · obtain ⟨last, rfl⟩ := Nat.exists_eq_add_one.mpr hsteps
    have hceil : (last + 1) ⌈/⌉ period.toNat - 1 = last / period.toNat := by
      have hround : last + 1 + period.toNat - 1 = last + period.toNat := by omega
      rw [Nat.ceilDiv_eq_add_pred_div, hround, Nat.add_div_right _ (toNat_pos hperiod)]
      rfl
    rw [stimuli_of_ok hok, hceil]
    exact ⟨count_step_turns _ _, count_raise_turns hperiod last, head?_turns _ last,
      getLast?_turns _ last⟩

/-- A machine of no-operations, with room for a return address behind them. -/
private def idling : Machine where
  control := { sp := 0x1810 }
  memory := ⟨"memory", [.store { range := .between 0x1800 0x1810 }]⟩
  ports := ⟨"io", []⟩

/-- The tick before the third step makes it enter the routine of the timer. -/
theorem runTimed_eq_reported_idling :
    (idling.runTimed (some 2) 3).1 = none ∧
      idling.stimuli (some 2) 3 = [.step, .step, .raise .secondTimer, .step] ∧
      (idling.stimuli (some 2) 3).count (.raise .secondTimer) = 3 ⌈/⌉ 2 - 1 ∧
      idling.runTimed (some 2) 3 = reported (runByTimer 2 3 idling) ∧
      (idling.runTimed (some 2) 3).2.control.pc = InterruptSource.secondTimer.routine ∧
      idling.runTimed (some 0) 3 = reported (run 3 idling) := by
  have hok : (idling.runTimed (some 2) 3).1 = none := rfl
  obtain ⟨hplain, htimed⟩ := runTimed_eq_reported idling 3
  obtain ⟨hstretches, -, hticks⟩ := htimed 2 (by decide)
  exact ⟨hok, rfl, (hticks (by decide) hok).2.1, hstretches, rfl, (hplain (some 0) (.inr rfl)).1⟩

end

end CalcWatch.Machine
