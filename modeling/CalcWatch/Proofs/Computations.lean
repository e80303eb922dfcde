import CalcWatch.Device
import Mathlib.Data.List.Forall2
import Mathlib.Order.Basic

/-!
# Computations that may fault

Everything that a watch does is a computation on a state that may fault, put together by sequencing
and by loops. The rules here do not look into the parts: they say what is known of a loop or of a
sequence once something is known of every part of it. In all of them a fault counts as an outcome
like any other, since it leaves a state behind on which a host goes on.

## Loops

A loop does its steps in order and ends at the first one that fails. A loop over the bytes of an
access computes their addresses as it goes. This cannot fail before something else has: no device
claims the last address, so an access that would run past it has ended there.

## Computations that keep a property

An invariant has to survive a fault as well as a success, so a computation keeps a property of the
state if it holds of the state that it leaves either way. A sequence keeps what its parts keep, and
then a property of one byte on a device is carried up to whole programs without another look at how
they are put together.

## Computations on related states

That a part of the state does not matter is said with two runs: started from states that differ in
nothing else, a computation gives the same answer both times, and the states it leaves are related
again. A fault is an answer too. Because the answers agree, the second part of a sequence is the
same computation in both runs, and the rules are those of one run.
-/

namespace CalcWatch

/-! ## Loops -/

section

variable {σ α β γ : Type}

/-! ### Questions -/

section Questions

variable {question : α → Except Fault β} {as : List α} {bs : List β} {f : Fault}

theorem mapM_eq_ok_iff :
    as.mapM question = .ok bs ↔ List.Forall₂ (fun a b ↦ question a = .ok b) as bs := by
  constructor
  · intro h
    induction as generalizing bs with
    | nil =>
      cases h
      exact .nil
    | cons a as ih =>
      rw [List.mapM_cons] at h
      cases ha : question a with
      | error f =>
        rw [ha] at h
        cases h
      | ok b =>
        cases has : as.mapM question with
        | error f =>
          rw [ha, has] at h
          cases h
        | ok bs' =>
          rw [ha, has] at h
          cases h
          exact .cons ha (ih has)
  · intro h
    induction h with
    | nil => rfl
    | cons hfirst _ ih =>
      rw [List.mapM_cons, hfirst, ih]
      rfl

theorem mapM_congr {question' : α → Except Fault β} (h : ∀ a ∈ as, question a = question' a) :
    as.mapM question = as.mapM question' := by
  induction as with
  | nil => rfl
  | cons a as ih =>
    rw [List.forall_mem_cons] at h
    rw [List.mapM_cons, List.mapM_cons, h.1, ih h.2]

theorem exists_of_mem_of_mapM {a : α} (h : as.mapM question = .ok bs) (ha : a ∈ as) :
    ∃ b, question a = .ok b := by
  have hall := mapM_eq_ok_iff.mp h
  obtain ⟨i, hi, rfl⟩ := List.getElem_of_mem ha
  exact ⟨_, hall.get hi (hall.length_eq ▸ hi)⟩

/-- The first question that has no answer decides. -/
theorem exists_of_mapM_error (h : as.mapM question = .error f) :
    ∃ before refused after, as = before ++ refused :: after ∧
      (∀ a ∈ before, ∃ b, question a = .ok b) ∧ question refused = .error f := by
  induction as with
  | nil => cases h
  | cons a as ih =>
    rw [List.mapM_cons] at h
    cases ha : question a with
    | error g =>
      rw [ha] at h
      cases h
      exact ⟨[], a, as, rfl, nofun, ha⟩
    | ok b =>
      cases has : as.mapM question with
      | error g =>
        rw [ha, has] at h
        cases h
        obtain ⟨before, refused, after, rfl, hbefore, hrefused⟩ := ih has
        exact ⟨a :: before, refused, after, rfl, List.forall_mem_cons.mpr ⟨⟨b, ha⟩, hbefore⟩,
          hrefused⟩
      | ok bs =>
        rw [ha, has] at h
        cases h

end Questions

/-! ### Steps -/

namespace Faulting

/-- The computation never succeeds. -/
def Fails (x : Faulting σ α) : Prop := ∀ s a t, x s ≠ .ok a t

theorem Fails.bind_eq {x : Faulting σ α} (hx : Fails x) (next next' : α → Faulting σ β) :
    (x >>= next) = x >>= next' := by
  funext s
  cases h : x s with
  | ok a t => exact absurd h (hx s a t)
  | error f t => rw [bind_of_error h, bind_of_error h]

theorem Fails.bind {x : Faulting σ α} (hx : Fails x) (next : α → Faulting σ β) :
    Fails (x >>= next) := by
  intro s b u h
  obtain ⟨a, t, ha, -⟩ := exists_of_bind_ok h
  exact hx s a t ha

theorem fails_ask {question : σ → Except Fault α} (h : ∀ s a, question s ≠ .ok a) :
    Fails (ask question) :=
  fun s a _ hs ↦ h s a (eq_of_ask_ok hs).1

theorem forM_eq_foldlM (as : List α) (step : α → Faulting σ Unit) :
    as.forM step = as.foldlM (fun _ a ↦ step a) () := by
  induction as with
  | nil => rfl
  | cons a as ih => exact congrArg (step a >>= ·) (funext fun _ ↦ ih)

theorem forM_map (as : List α) (g : α → β) (step : β → Faulting σ Unit) :
    (as.map g).forM step = as.forM fun a ↦ step (g a) := by
  rw [forM_eq_foldlM, forM_eq_foldlM, List.foldlM_map]

/-- A loop that fails has done the steps before the refused one. -/
theorem exists_of_forM_error {step : α → Faulting σ Unit} {as : List α} {s u : σ} {f : Fault}
    (h : as.forM step s = .error f u) :
    ∃ before refused after t, as = before ++ refused :: after ∧ before.forM step s = .ok () t ∧
      step refused t = .error f u := by
  -- from all states, since the first step has changed the state when the second is done
  induction as generalizing s with
  | nil => cases h
  | cons a as ih =>
    rcases error_or_of_bind_error h with hfirst | ⟨_, next, hfirst, hrest⟩
    · exact ⟨[], a, as, s, rfl, rfl, hfirst⟩
    · obtain ⟨before, refused, after, t, rfl, hbefore, hrefused⟩ := ih hrest
      exact ⟨a :: before, refused, after, t, rfl, (bind_of_ok hfirst).trans hbefore, hrefused⟩

/-- A loop that only consults the state asks all its questions first. -/
theorem answer_foldlM_ask (question : α → σ → Except Fault β) (step : γ → α → β → γ) (as : List α)
    (x : γ) (s : σ) :
    answer (as.foldlM (fun x a ↦ do
        let b ← ask (question a)
        pure (step x a b)) x) s =
      (as.mapM (question · s)).map fun bs ↦ (as.zip bs).foldl (fun x ab ↦ step x ab.1 ab.2) x := by
  induction as generalizing x with
  | nil => rfl
  | cons a as ih =>
    rw [List.foldlM_cons, List.mapM_cons]
    cases ha : question a s with
    | error f =>
      rw [answer, bind_of_error (bind_of_error (ask_of_error ha))]
      rfl
    | ok b =>
      have hfirst : (do let b ← ask (question a); pure (step x a b)) s = .ok (step x a b) s :=
        bind_of_ok (ask_of_ok ha)
      have hrest := ih (step x a b)
      rw [answer] at hrest
      rw [answer, bind_of_ok hfirst, hrest]
      cases as.mapM (question · s) <;> rfl

end Faulting

/-! ### Indices and addresses -/

/-- Where a list of terms is split, the terms with a smaller index stand before. -/
theorem eq_of_map_range_eq_append {g : ℕ → α} {n : ℕ} {before after : List α} {a : α}
    (h : (List.range n).map g = before ++ a :: after) :
    before.length < n ∧ (∀ i < before.length, g i ∈ before) ∧ a = g before.length := by
  have hlength : n = before.length + (after.length + 1) := by
    simpa using congrArg List.length h
  rw [hlength, List.range_add, List.map_append] at h
  obtain ⟨hbefore, hafter⟩ := List.append_inj' h (by simp)
  rw [List.range_succ_eq_map, List.map_cons, List.map_cons] at hafter
  refine ⟨by omega, fun i hi ↦ ?_, (List.cons.inj hafter).1.symm⟩
  rw [← hbefore]
  exact List.mem_map_of_mem (List.mem_range.mpr hi)

namespace Faulting

section

variable {index : α → ℕ} {start : UInt32} {as : List α}

/-- If nothing can be done at the last address, the addresses of a loop may as well wrap. -/
theorem foldlM_byteAddress {k : ℕ} (step : β → α → UInt32 → Faulting σ β)
    (hlast : ∀ x a, Fails (step x a lastAddress)) (hk : start.toNat + k < addressCount)
    (hindex : as.map index = List.range' k as.length) (x : β) :
    as.foldlM (fun x a ↦ do step x a (← ofExcept (byteAddress start (index a)))) x =
      as.foldlM (fun x a ↦ step x a (start + UInt32.ofNat (index a))) x := by
  induction as generalizing k x with
  | nil => rfl
  | cons a as ih =>
    rw [List.map_cons, List.length_cons, List.range'_succ] at hindex
    obtain ⟨rfl, hrest⟩ := List.cons.inj hindex
    have hfirst : (do step x a (← ofExcept (byteAddress start (index a)))) =
        step x a (start + UInt32.ofNat (index a)) := by
      rw [byteAddress_of_lt hk]
      rfl
    rw [List.foldlM_cons, List.foldlM_cons, hfirst]
    by_cases hnext : start.toNat + (index a + 1) < addressCount
    · exact congrArg (_ >>= ·) (funext (ih hnext hrest))
    · -- the next address would wrap, so this one is the last, where the step fails
      have haddress : start + UInt32.ofNat (index a) = lastAddress := by
        rw [← UInt32.toNat_inj, toNat_add_ofNat hk]
        change _ = 0xFFFFFFFF
        rw [addressCount] at hk hnext
        omega
      rw [haddress]
      exact (hlast x a).bind_eq _ _

theorem forM_byteAddress (step : α → UInt32 → Faulting σ Unit)
    (hlast : ∀ a, Fails (step a lastAddress)) (hindex : as.map index = List.range' 0 as.length)
    (start : UInt32) :
    as.forM (fun a ↦ do step a (← ofExcept (byteAddress start (index a)))) =
      as.forM fun a ↦ step a (start + UInt32.ofNat (index a)) := by
  rw [forM_eq_foldlM, forM_eq_foldlM]
  exact foldlM_byteAddress (fun _ ↦ step) (fun _ ↦ hlast) start.toNat_lt hindex ()

end

end Faulting

end

/-! ## Computations that keep a property -/

namespace Faulting

variable {σ α β : Type} {P : σ → Prop}

/-- Wherever the computation starts from a state with the property, it ends in one, whether it
succeeds or fails. -/
def Keeps (P : σ → Prop) (x : Faulting σ α) : Prop := ∀ s, P s → P (finalState (x s))

theorem keeps_pure (a : α) : Keeps P (pure a : Faulting σ α) := fun _ h ↦ h

theorem keeps_throw (f : Fault) : Keeps P (throw f : Faulting σ α) := fun _ h ↦ h

theorem keeps_view (read : σ → α) : Keeps P (view read) := fun _ h ↦ h

theorem keeps_ask (question : σ → Except Fault α) : Keeps P (ask question) := by
  intro s h
  rwa [finalState_ask]

theorem keeps_update {change : σ → σ} (hchange : ∀ s, P s → P (change s)) :
    Keeps P (update change) := hchange

theorem Keeps.bind {x : Faulting σ α} {next : α → Faulting σ β} (hx : Keeps P x)
    (hnext : ∀ a, Keeps P (next a)) : Keeps P (x >>= next) := by
  intro s h
  have hfirst := hx s h
  cases hs : x s with
  | ok a t =>
    rw [hs] at hfirst
    rw [bind_of_ok hs]
    exact hnext a t hfirst
  | error f t =>
    rw [hs] at hfirst
    rwa [bind_of_error hs]

/-- What later parts of a sequence leave alone is settled by the first. -/
theorem finalState_bind {part : σ → β} {γ δ : Type} {x : Faulting σ γ} {next : γ → Faulting σ δ}
    (hnext : ∀ c s, part (finalState (next c s)) = part s) (s : σ) :
    part (finalState ((x >>= next) s)) = part (finalState (x s)) := by
  cases hs : x s with
  | ok c t =>
    rw [bind_of_ok hs]
    exact hnext c t
  | error f t =>
    rw [bind_of_error hs]
    rfl

theorem keeps_forM {γ : Type} {body : γ → Faulting σ Unit} (hbody : ∀ c, Keeps P (body c))
    (items : List γ) : Keeps P (items.forM body) := by
  induction items with
  | nil => exact keeps_pure ()
  | cons item items ih => exact (hbody item).bind fun _ ↦ ih

end Faulting

/-! ## Computations on related states -/

namespace Faulting

variable {σ α β : Type} {R Q R' : σ → σ → Prop}

/-- Started from states that are related by `R`, the computation gives the same answer and ends in
states that are related by `R'`. -/
def Relates (R R' : σ → σ → Prop) (x : Faulting σ α) : Prop :=
  ∀ s t, R s t → answer x t = answer x s ∧ R' (finalState (x s)) (finalState (x t))

theorem Relates.mono {x : Faulting σ α} (hx : Relates R Q x) (hle : Q ≤ R') : Relates R R' x :=
  fun s t h ↦ (hx s t h).imp_right (hle _ _)

theorem relates_pure (a : α) : Relates R R (pure a : Faulting σ α) := fun _ _ h ↦ ⟨rfl, h⟩

theorem relates_view {read : σ → α} (hread : ∀ s t, R s t → read t = read s) :
    Relates R R (view read) :=
  fun s t h ↦ ⟨congrArg Except.ok (hread s t h), h⟩

theorem answer_ask (question : σ → Except Fault α) (s : σ) :
    answer (ask question) s = question s := by
  cases h : question s with
  | ok a => rw [answer, ask_of_ok h]
  | error f => rw [answer, ask_of_error h]

theorem relates_ask {question : σ → Except Fault α}
    (hquestion : ∀ s t, R s t → question t = question s) : Relates R R (ask question) := by
  intro s t h
  rw [answer_ask, answer_ask, finalState_ask, finalState_ask]
  exact ⟨hquestion s t h, h⟩

theorem relates_update {change : σ → σ} (hchange : ∀ s t, R s t → R' (change s) (change t)) :
    Relates R R' (update change) :=
  fun s t h ↦ ⟨rfl, hchange s t h⟩

/-- If the first part fails, it fails in both runs; otherwise its answer is what both go on with. -/
theorem Relates.bind {x : Faulting σ α} {next : α → Faulting σ β} (hx : Relates R Q x)
    (hnext : ∀ a, Relates Q R' (next a)) (hle : Q ≤ R') : Relates R R' (x >>= next) := by
  intro s t h
  obtain ⟨hanswer, hfinal⟩ := hx s t h
  rw [answer, answer] at hanswer ⊢
  cases hs : x s with
  | ok a s' =>
    cases ht : x t with
    | ok b t' =>
      rw [hs, ht] at hanswer hfinal
      cases hanswer
      rw [bind_of_ok hs, bind_of_ok ht]
      exact hnext a s' t' hfinal
    | error g t' =>
      rw [hs, ht] at hanswer
      cases hanswer
  | error f s' =>
    cases ht : x t with
    | ok b t' =>
      rw [hs, ht] at hanswer
      cases hanswer
    | error g t' =>
      rw [hs, ht] at hanswer hfinal
      cases hanswer
      rw [bind_of_error hs, bind_of_error ht]
      exact ⟨rfl, hle _ _ hfinal⟩

theorem Relates.andThen {x : Faulting σ α} {next : α → Faulting σ β} (hx : Relates R R x)
    (hnext : ∀ a, Relates R R (next a)) : Relates R R (x >>= next) :=
  hx.bind hnext le_rfl

end Faulting

end CalcWatch
