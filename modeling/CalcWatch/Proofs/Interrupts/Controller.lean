import CalcWatch.Machine
import Mathlib.Algebra.Group.Nat.Defs
import Mathlib.Data.List.Basic
import Mathlib.Data.List.Induction

/-!
# The interrupt controller and its past

The controller keeps a mask of pending sources and the flag that a routine is in service. First the
mask is told bit by bit; then it is told what a controller that began empty has been through.

## The bits of a controller

Every source has a bit of its own, and its place among the sources decides when its turn comes. To
raise a source sets its bit, to enter its routine clears it, and neither touches the bit of another
source.

## The past of a controller

Six bits and a flag are all that a controller keeps, and yet they tell what it has been through: a
bit says that its source was raised and has not been served since, the flag that a routine was
entered and has not been left since. Both are instances of one form, "this happened, and since then
nothing of that", which changes with every event in a way that the controller can follow. So what a
controller answers can be read off its past, and the past of every controller obeys the same laws.
-/

namespace CalcWatch

/-! ## The bits of a controller -/

namespace InterruptSource

/-- The place of a source among all; the first to be served has the least. -/
def place (source : InterruptSource) : ℕ := all.idxOf source

theorem place_lt (source : InterruptSource) : source.place < 8 := by
  cases source <;> decide

theorem getElem_place (source : InterruptSource) (h : source.place < all.length) :
    all[source.place] = source := List.getElem_idxOf h

theorem place_inj {source other : InterruptSource} : source.place = other.place ↔ source = other :=
  List.idxOf_inj source.mem_all

theorem toBitVec_bit (source : InterruptSource) :
    source.bit.toBitVec = BitVec.twoPow 8 source.place := by
  cases source <;> rfl

end InterruptSource

namespace InterruptController

variable {controller : InterruptController} {source other : InterruptSource}

/-! ### The bits -/

theorem isPending_eq (controller : InterruptController) (source : InterruptSource) :
    controller.isPending source = controller.pending.toBitVec.getLsbD source.place := by
  rw [Bool.eq_iff_iff, isPending, bne_iff_ne, Ne, ← UInt8.toBitVec_inj, UInt8.toBitVec_and,
    InterruptSource.toBitVec_bit, BitVec.and_twoPow]
  have hbit : BitVec.twoPow 8 source.place ≠ 0#8 := by
    rw [← InterruptSource.toBitVec_bit]
    cases source <;> decide
  cases controller.pending.toBitVec.getLsbD source.place <;> simp [hbit]

theorem getLsbD_bit (source other : InterruptSource) :
    source.bit.toBitVec.getLsbD other.place = decide (source = other) := by
  rw [InterruptSource.toBitVec_bit, BitVec.getLsbD_twoPow, decide_eq_true source.place_lt,
    Bool.true_and, decide_eq_decide, InterruptSource.place_inj]

theorem isPending_raise :
    (controller.raise source).isPending other = true ↔
      controller.isPending other = true ∨ source = other := by
  rw [isPending_eq, isPending_eq, raise, UInt8.toBitVec_or, BitVec.getLsbD_or, getLsbD_bit,
    Bool.or_eq_true, decide_eq_true_iff]

theorem isPending_enter :
    (controller.enter source).isPending other = true ↔
      controller.isPending other = true ∧ source ≠ other := by
  rw [isPending_eq, isPending_eq, enter, UInt8.toBitVec_and, UInt8.toBitVec_not, BitVec.getLsbD_and,
    BitVec.getLsbD_not, getLsbD_bit, decide_eq_true other.place_lt, Bool.true_and, Bool.and_eq_true,
    Bool.not_eq_true', decide_eq_false_iff_not]

/-! ### No other bits -/

/-- Every pending bit is the bit of a source. -/
def Sound (controller : InterruptController) : Prop :=
  controller.pending.toNat < 2 ^ InterruptSource.all.length

theorem sound_default : Sound {} := Nat.two_pow_pos _

theorem Sound.raise (h : controller.Sound) (source : InterruptSource) :
    (controller.raise source).Sound := by
  rw [Sound, InterruptController.raise, UInt8.toNat_or]
  exact Nat.or_lt_two_pow h (by cases source <;> decide)

theorem Sound.enter (h : controller.Sound) (source : InterruptSource) :
    (controller.enter source).Sound := by
  rw [Sound, InterruptController.enter, UInt8.toNat_and]
  exact Nat.lt_of_le_of_lt Nat.and_le_left h

theorem Sound.exists_source (h : controller.Sound) {i : ℕ}
    (hi : controller.pending.toNat.testBit i = true) :
    ∃ source : InterruptSource, source.bit.toNat = 2 ^ i := by
  have hbits : ∀ i < InterruptSource.all.length,
      ∃ source ∈ InterruptSource.all, source.bit.toNat = 2 ^ i := by decide
  obtain ⟨source, -, hsource⟩ := hbits i ((Nat.pow_lt_pow_iff_right (by decide)).mp
    (Nat.lt_of_le_of_lt (Nat.ge_two_pow_of_testBit hi) h))
  exact ⟨source, hsource⟩

theorem Sound.pending_eq_zero_iff (h : controller.Sound) :
    controller.pending = 0 ↔ ∀ source, controller.isPending source = false := by
  constructor
  · intro hzero source
    rw [isPending, hzero, UInt8.zero_and]
    rfl
  · intro hidle
    refine UInt8.toNat_inj.mp (Nat.eq_of_testBit_eq fun i ↦ ?_)
    rw [UInt8.toNat_zero, Nat.zero_testBit, Bool.eq_false_iff]
    intro hbit
    obtain ⟨source, hsource⟩ := h.exists_source hbit
    have hplace : source.bit.toNat = 2 ^ source.place := by cases source <;> decide
    have hi : source.place = i :=
      (Nat.pow_right_inj Nat.one_lt_two).mp (hplace.symm.trans hsource)
    have hpending : controller.isPending source = true := by
      rw [isPending_eq, hi]
      exact hbit
    exact Bool.false_ne_true ((hidle source).symm.trans hpending)

/-! ### Whose turn it is -/

/-- The source is pending, and no other that is pending comes before it. -/
structure First (controller : InterruptController) (source : InterruptSource) : Prop where
  pending : controller.isPending source = true
  le : ∀ other, controller.isPending other = true → source.place ≤ other.place

theorem First.unique (h : controller.First source) (h' : controller.First other) :
    source = other :=
  InterruptSource.place_inj.mp
    (Nat.le_antisymm (h.le other h'.pending) (h'.le source h.pending))

theorem first_of_find? (h : InterruptSource.all.find? controller.isPending = some source) :
    controller.First source := by
  obtain ⟨hpending, i, hi, hsource, hearlier⟩ := List.find?_eq_some_iff_getElem.mp h
  have hplace : source.place = i := by
    rw [InterruptSource.place, ← hsource]
    exact List.Nodup.idxOf_getElem (by decide) i hi
  refine ⟨hpending, fun other hother ↦ ?_⟩
  -- a source that came earlier would have been found earlier
  by_contra hlt
  have hnot := hearlier other.place (by omega)
  rw [InterruptSource.getElem_place, hother] at hnot
  cases hnot

/-- The source that is due is the first of those that are pending. -/
theorem next?_eq_some_iff :
    controller.next? = some source ↔ controller.servicing = false ∧ controller.First source := by
  rw [next?]
  cases hservicing : controller.servicing with
  | true => simp
  | false =>
    rw [if_neg Bool.false_ne_true]
    refine ⟨fun h ↦ ⟨rfl, first_of_find? h⟩, ?_⟩
    rintro ⟨-, h⟩
    cases hfind : InterruptSource.all.find? controller.isPending with
    | some found => rw [(first_of_find? hfind).unique h]
    | none =>
      have hnone := List.find?_eq_none.mp hfind source source.mem_all
      exact absurd h.pending hnone

theorem exists_next? (hservicing : controller.servicing = false)
    (hpending : controller.isPending source = true) :
    ∃ first, controller.next? = some first := by
  rw [next?, hservicing, if_neg Bool.false_ne_true, ← Option.isSome_iff_exists, List.find?_isSome]
  exact ⟨source, source.mem_all, hpending⟩

/-- No source is due while one is in service, and none is if nothing is pending. -/
theorem next?_eq_none_iff : controller.next? = none ↔
    controller.servicing = true ∨ ∀ source, controller.isPending source = false := by
  constructor
  · intro h
    cases hservicing : controller.servicing with
    | true => exact .inl rfl
    | false =>
      refine .inr fun source ↦ Bool.eq_false_iff.mpr fun hpending ↦ ?_
      obtain ⟨first, hfirst⟩ := exists_next? hservicing hpending
      rw [h] at hfirst
      cases hfirst
  · rintro (hservicing | hidle)
    · exact next?_of_servicing hservicing
    · cases h : controller.next? with
      | none => rfl
      | some source =>
        have hpending := isPending_of_next? h
        rw [hidle source] at hpending
        cases hpending

/-! ### To poll -/

theorem fst_poll (controller : InterruptController) : controller.poll.1 = controller.next? := by
  rw [poll]
  split <;> simp [*]

theorem poll_of_due (h : controller.next? = some source) :
    controller.poll = (some source, controller.enter source) := by
  rw [poll, h]

theorem poll_of_not_due (h : controller.next? = none) : controller.poll = (none, controller) := by
  rw [poll, h]

end InterruptController

/-! ## The past of a controller -/

/-! ### Requests and events -/

/-- What a controller is asked to do. -/
inductive InterruptRequest where
  /-- To take note of a source. -/
  | raise (source : InterruptSource)
  /-- To name the source to be served. -/
  | poll
  /-- To leave the routine in service. -/
  | finish
deriving DecidableEq, Repr

/-- What has happened at a controller. -/
inductive InterruptEvent where
  /-- A source was raised. -/
  | raised (source : InterruptSource)
  /-- It was polled and answered. -/
  | polled (answer : Option InterruptSource)
  /-- It was told to leave a routine, and answered whether there was one. -/
  | finished (answer : Bool)
deriving DecidableEq, Repr

/-! ### Since -/

/-- Something with the first property has happened, and nothing with the second one since. -/
def Since {α : Type} (P Q : α → Prop) (events : List α) : Prop :=
  ∃ before event later, events = before ++ event :: later ∧ P event ∧ ∀ other ∈ later, ¬Q other

section

variable {α : Type} {P Q : α → Prop} {events before later : List α} {event : α}

theorem not_since_nil : ¬Since P Q [] := by
  rintro ⟨before, event, later, hsplit, -⟩
  exact List.append_ne_nil_of_right_ne_nil _ (List.cons_ne_nil _ _) hsplit.symm

/-- One more event starts the time anew, lets it go on, or ends it. -/
theorem since_concat : Since P Q (events ++ [event]) ↔ P event ∨ Since P Q events ∧ ¬Q event := by
  constructor
  · rintro ⟨before, first, later, hsplit, hfirst, hlater⟩
    rcases List.eq_nil_or_concat' later with rfl | ⟨later, last, rfl⟩
    · obtain ⟨-, hlast⟩ := List.append_inj' hsplit rfl
      rw [List.singleton_inj] at hlast
      exact .inl (hlast ▸ hfirst)
    · rw [← List.cons_append, ← List.append_assoc] at hsplit
      obtain ⟨rfl, hlast⟩ := List.append_inj' hsplit rfl
      rw [List.singleton_inj] at hlast
      subst hlast
      rw [List.forall_mem_append, List.forall_mem_singleton] at hlater
      exact .inr ⟨⟨before, first, later, rfl, hfirst, hlater.1⟩, hlater.2⟩
  · rintro (hevent | ⟨⟨before, first, later, rfl, hfirst, hlater⟩, hevent⟩)
    · exact ⟨events, event, [], rfl, hevent, nofun⟩
    · refine ⟨before, first, later ++ [event], by simp, hfirst, ?_⟩
      rw [List.forall_mem_append, List.forall_mem_singleton]
      exact ⟨hlater, hevent⟩

/-- What ends the time has to be made up for afterwards. -/
theorem Since.of_append (hevent : Q event) (hstart : ¬P event)
    (h : Since P Q (before ++ event :: later)) : Since P Q later := by
  induction later using List.reverseRecOn with
  | nil =>
    rw [since_concat] at h
    exact absurd hevent (h.resolve_left hstart).2
  | append_singleton later last ih =>
    rw [← List.cons_append, ← List.append_assoc, since_concat] at h
    exact since_concat.mpr (h.imp_right fun ⟨hbefore, hlast⟩ ↦ ⟨ih hbefore, hlast⟩)

theorem Since.exists_mem (h : Since P Q events) : ∃ event ∈ events, P event := by
  obtain ⟨before, event, later, rfl, hevent, -⟩ := h
  exact ⟨event, List.mem_append_right _ List.mem_cons_self, hevent⟩

end

namespace InterruptController

/-- The source was raised and has not been the answer to a poll since. -/
def Awaits (events : List InterruptEvent) (source : InterruptSource) : Prop :=
  Since (· = .raised source) (· = .polled (some source)) events

/-- A poll was answered with a source, and nothing was finished since. -/
def Engaged (events : List InterruptEvent) : Prop :=
  Since (∃ source, · = .polled (some source)) (∃ answer, · = .finished answer) events

theorem awaits_concat {events : List InterruptEvent} {event : InterruptEvent}
    {source : InterruptSource} : Awaits (events ++ [event]) source ↔
      event = .raised source ∨ Awaits events source ∧ event ≠ .polled (some source) :=
  since_concat

theorem engaged_concat {events : List InterruptEvent} {event : InterruptEvent} :
    Engaged (events ++ [event]) ↔ (∃ source, event = .polled (some source)) ∨
      Engaged events ∧ ¬∃ answer, event = .finished answer :=
  since_concat

/-! ### What a controller goes through -/

/-- What comes of a request, and the controller after it. -/
def meet (controller : InterruptController) :
    InterruptRequest → InterruptEvent × InterruptController
  | .raise source => (.raised source, controller.raise source)
  | .poll => (.polled controller.poll.1, controller.poll.2)
  | .finish => (.finished controller.finish.1, controller.finish.2)

def after (controller : InterruptController) (requests : List InterruptRequest) :
    InterruptController :=
  requests.foldl (fun controller request ↦ (controller.meet request).2) controller

def events : InterruptController → List InterruptRequest → List InterruptEvent
  | _, [] => []
  | controller, request :: requests =>
    (controller.meet request).1 :: events (controller.meet request).2 requests

variable {controller : InterruptController}

/-- Every event of a past has come of a request, and before it there is the past of the controller
that had the request. -/
theorem exists_of_events_eq {requests : List InterruptRequest} {event : InterruptEvent}
    {before later : List InterruptEvent}
    (h : controller.events requests = before ++ event :: later) :
    ∃ earlier request, before = controller.events earlier ∧
      event = ((controller.after earlier).meet request).1 := by
  induction requests generalizing controller before with
  | nil => exact absurd h.symm (List.append_ne_nil_of_right_ne_nil _ (List.cons_ne_nil _ _))
  | cons request requests ih =>
    cases before with
    | nil => exact ⟨[], request, rfl, (List.cons.inj h).1.symm⟩
    | cons first before =>
      obtain ⟨hfirst, hrest⟩ := List.cons.inj h
      obtain ⟨earlier, answered, hbefore, hevent⟩ := ih hrest
      exact ⟨request :: earlier, answered, by rw [hbefore, ← hfirst, events], hevent⟩

/-! ### What a controller remembers -/

/-- What the controller keeps tells these events. -/
structure Recalls (controller : InterruptController) (events : List InterruptEvent) : Prop where
  /-- A bit is set if its source was raised and has not been served since. -/
  isPending_iff : ∀ source, controller.isPending source = true ↔ Awaits events source
  /-- The flag is set if a routine was entered and has not been left since. -/
  servicing_iff : controller.servicing = true ↔ Engaged events
  /-- There are no other bits. -/
  sound : controller.Sound

theorem recalls_nil : Recalls {} [] where
  isPending_iff source := by
    have hidle : isPending {} source = false := by cases source <;> rfl
    simp [hidle, Awaits, not_since_nil]
  servicing_iff := by simp [Engaged, not_since_nil]
  sound := sound_default

/-- A controller that remembers its past remembers one more event. -/
theorem Recalls.meet {events : List InterruptEvent} (h : controller.Recalls events)
    (request : InterruptRequest) :
    (controller.meet request).2.Recalls (events ++ [(controller.meet request).1]) := by
  cases request with
  | raise raised =>
    refine ⟨fun source ↦ ?_, ?_, h.sound.raise raised⟩
    · rw [InterruptController.meet, isPending_raise, awaits_concat, h.isPending_iff]
      simp [or_comm]
    · change controller.servicing = true ↔ _
      rw [h.servicing_iff, InterruptController.meet, engaged_concat]
      simp
  | poll =>
    rw [InterruptController.meet]
    cases hnext : controller.next? with
    | none =>
      rw [poll_of_not_due hnext]
      refine ⟨fun source ↦ ?_, ?_, h.sound⟩
      · rw [awaits_concat, h.isPending_iff]
        simp
      · rw [engaged_concat, h.servicing_iff]
        simp
    | some served =>
      rw [poll_of_due hnext]
      refine ⟨fun source ↦ ?_, ?_, h.sound.enter served⟩
      · rw [isPending_enter, awaits_concat, h.isPending_iff]
        simp
      · rw [engaged_concat]
        simp [enter]
  | finish =>
    refine ⟨fun source ↦ ?_, ?_, h.sound⟩
    · change controller.isPending source = true ↔ _
      rw [h.isPending_iff, InterruptController.meet, awaits_concat]
      simp
    · rw [InterruptController.meet, engaged_concat]
      simp [finish]

theorem Recalls.after {events : List InterruptEvent} (h : controller.Recalls events)
    (requests : List InterruptRequest) :
    (controller.after requests).Recalls (events ++ controller.events requests) := by
  induction requests generalizing controller events with
  | nil => rwa [InterruptController.events, List.append_nil]
  | cons request requests ih =>
    have hrest := ih (h.meet request)
    rwa [List.append_assoc] at hrest

/-- The controller that a new one has become. -/
def reached (requests : List InterruptRequest) : InterruptController := after {} requests

def past (requests : List InterruptRequest) : List InterruptEvent := events {} requests

theorem recalls_past (requests : List InterruptRequest) :
    (reached requests).Recalls (past requests) := recalls_nil.after requests

/-! ### What a past is like -/

theorem Recalls.next?_eq_some_iff {events : List InterruptEvent} (h : controller.Recalls events)
    {source : InterruptSource} : controller.next? = some source ↔
      ¬Engaged events ∧ Awaits events source ∧
        ∀ other, Awaits events other → source.place ≤ other.place := by
  rw [InterruptController.next?_eq_some_iff, ← Bool.not_eq_true, h.servicing_iff]
  refine and_congr_right fun _ ↦ ⟨fun hfirst ↦ ?_, fun hfirst ↦ ⟨?_, fun other hother ↦ ?_⟩⟩
  · exact ⟨(h.isPending_iff source).mp hfirst.pending,
      fun other hother ↦ hfirst.le other ((h.isPending_iff other).mpr hother)⟩
  · exact (h.isPending_iff source).mpr hfirst.1
  · exact hfirst.2 other ((h.isPending_iff other).mp hother)

theorem Recalls.next?_eq_none_iff {events : List InterruptEvent} (h : controller.Recalls events) :
    controller.next? = none ↔ Engaged events ∨ ∀ source, ¬Awaits events source := by
  simp only [InterruptController.next?_eq_none_iff, h.servicing_iff, ← h.isPending_iff,
    Bool.not_eq_true]

/-- A source is the answer to a poll only when no routine was in service and the source was
waiting. -/
theorem of_past_eq_polled {requests : List InterruptRequest} {source : InterruptSource}
    {before later : List InterruptEvent}
    (h : past requests = before ++ .polled (some source) :: later) :
    ¬Engaged before ∧ Awaits before source := by
  obtain ⟨earlier, request, rfl, hevent⟩ := exists_of_events_eq h
  cases request with
  | poll =>
    have hnext : (reached earlier).next? = some source := by
      rw [← fst_poll]
      exact (InterruptEvent.polled.inj hevent).symm
    have hdue := (recalls_past earlier).next?_eq_some_iff.mp hnext
    exact ⟨hdue.1, hdue.2.1⟩
  | _ => cases hevent

/-- What the controller answers next is settled by these events. -/
structure AnswersFor (controller : InterruptController) (events : List InterruptEvent) : Prop where
  /-- The mask is empty only if no source waits, so a poll that looks for a source finds one. -/
  pending_eq_zero_iff : controller.pending = 0 ↔ ∀ source, ¬Awaits events source
  /-- No source is named while a routine is in service, and none if none waits. -/
  poll_eq_none_iff : controller.poll.1 = none ↔ Engaged events ∨ ∀ source, ¬Awaits events source
  /-- A poll that names no source has no effect. -/
  unchanged : controller.poll.1 = none → controller.poll.2 = controller
  /-- Otherwise the first of the waiting sources is named. -/
  poll_eq_some_iff : ∀ source, controller.poll.1 = some source ↔
    ¬Engaged events ∧ Awaits events source ∧ ∀ other, Awaits events other →
      source.place ≤ other.place
  /-- The routine of a source that is named is entered, and only this source is taken off. -/
  entered : ∀ source, controller.poll.1 = some source → controller.poll.2.servicing = true ∧
    ∀ other, controller.poll.2.isPending other = true ↔
      controller.isPending other = true ∧ source ≠ other
  /-- To finish tells whether a routine was in service. -/
  finish_iff : controller.finish.1 = true ↔ Engaged events
  /-- To finish leaves the routine and takes nothing off. -/
  left : controller.finish.2 = { controller with servicing := false }

theorem Recalls.answersFor {events : List InterruptEvent} (h : controller.Recalls events) :
    controller.AnswersFor events where
  pending_eq_zero_iff := by
    simp only [h.sound.pending_eq_zero_iff, ← h.isPending_iff, Bool.not_eq_true]
  poll_eq_none_iff := by
    rw [fst_poll]
    exact h.next?_eq_none_iff
  unchanged hnone := by
    rw [fst_poll] at hnone
    rw [poll_of_not_due hnone]
  poll_eq_some_iff source := by
    rw [fst_poll]
    exact h.next?_eq_some_iff
  entered source hsome := by
    rw [fst_poll] at hsome
    rw [poll_of_due hsome]
    exact ⟨rfl, fun other ↦ isPending_enter⟩
  finish_iff := h.servicing_iff
  left := rfl

/-- The laws of a past. -/
structure Lawful (events : List InterruptEvent) : Prop where
  /-- Between the entries of two routines there was a finish. -/
  left_between : ∀ before first between second later,
    events = before ++ .polled (some first) :: (between ++ .polled (some second) :: later) →
      ∃ answer, .finished answer ∈ between
  /-- A source that was named had been raised. -/
  raised_before : ∀ before source later, events = before ++ .polled (some source) :: later →
    .raised source ∈ before
  /-- A source that was named twice had been raised in between. -/
  raised_between : ∀ before source between later,
    events = before ++ .polled (some source) :: (between ++ .polled (some source) :: later) →
      .raised source ∈ between

theorem lawful_past (requests : List InterruptRequest) : Lawful (past requests) where
  left_between before first between second later hpast := by
    rw [← List.cons_append, ← List.append_assoc] at hpast
    obtain ⟨hfree, -⟩ := of_past_eq_polled hpast
    -- the first routine was in service, and at the second poll none was
    by_contra hnever
    refine hfree ⟨before, _, between, rfl, ⟨first, rfl⟩, fun event hmem ↦ ?_⟩
    rintro ⟨answer, rfl⟩
    exact hnever ⟨answer, hmem⟩
  raised_before before source later hpast := by
    obtain ⟨-, hawaits⟩ := of_past_eq_polled hpast
    obtain ⟨event, hmem, rfl⟩ := hawaits.exists_mem
    exact hmem
  raised_between before source between later hpast := by
    rw [← List.cons_append, ← List.append_assoc] at hpast
    obtain ⟨-, hawaits⟩ := of_past_eq_polled hpast
    have hsince : Awaits between source := by
      rw [Awaits] at hawaits
      exact hawaits.of_append rfl nofun
    obtain ⟨event, hmem, rfl⟩ := hsince.exists_mem
    exact hmem

/-- **A controller tells its past, and its past tells what it does next.** What is pending and
whether a routine is in service can be read off the events, and so can the next answer. Between the
entries of two routines the first was left, and every entry is paid for by a source that was raised
since it was last served. -/
theorem reached_tells_past (requests : List InterruptRequest) :
    (reached requests).Recalls (past requests) ∧ (reached requests).AnswersFor (past requests) ∧
      Lawful (past requests) :=
  ⟨recalls_past requests, (recalls_past requests).answersFor, lawful_past requests⟩

end InterruptController

end CalcWatch
