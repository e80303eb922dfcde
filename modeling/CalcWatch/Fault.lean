import CalcWatch.Text

/-!
# Faults

Everything that can go wrong in the machine, and the one place where each cause is put into words. A
fault is the caller's: a layout with a hole in it, a program with an unassigned opcode, a debugger
that names no register. None is transient, so nothing is retried.

## Computations that may fault

An instruction that faults part way keeps what it had already done, and a host may go on from there.
So a computation does not answer with a state or a fault, but with a state and either an answer or a
fault: `Faulting σ α`. There are few ways to make one that is not put together from others. It reads
something off the state (`view`), consults the state and may be refused (`ask`), changes the state
(`update`), or changes it if a check allows it (`guarded`), and whichever of these fails has changed
nothing. The lemmas below say what a sequence does from what its parts do, and proofs about the
machine use them in place of the definition of sequencing.
-/

namespace CalcWatch

/-- The layer that raises a fault. -/
inductive FaultClass where
  /-- A bus access could not be served. -/
  | bus
  /-- A word is no instruction. -/
  | decode
  /-- A debugger's request was rejected. -/
  | introspection
deriving DecidableEq, Repr

inductive Fault where
  /-- No device claims the address. -/
  | unmappedAddress (address : UInt32)
  /-- A nibble cell was asked to hold a value above fifteen. -/
  | outOfRangeValue (address : UInt32) (value : UInt8)
  /-- The device at the address may not be read. -/
  | readDenied (address : UInt32)
  /-- The device at the address may not be written. -/
  | writeDenied (address : UInt32)
  /-- The word matches no entry of the opcode table. -/
  | illegalOpcode (word : UInt16)
  /-- No register has this name. -/
  | illegalRegisterName (name : String)
  /-- The named register does not accept the value. -/
  | illegalRegisterValue (name : String) (value : Int32)
deriving DecidableEq, Repr

namespace Fault

/-- The layer a fault belongs to. -/
def faultClass : Fault → FaultClass
  | unmappedAddress _ | outOfRangeValue _ _ | readDenied _ | writeDenied _ => .bus
  | illegalOpcode _ => .decode
  | illegalRegisterName _ | illegalRegisterValue _ _ => .introspection

/-- The word carried by an illegal opcode. -/
def opcode? : Fault → Option UInt16
  | illegalOpcode word => some word
  | _ => none

/-- The fault in words. Addresses and opcodes have at least four hexadecimal digits; a rejected name
is quoted, and a rejected value names its register bare. -/
def message : Fault → String
  | unmappedAddress a => "no device mapped at address " ++ Text.address a.toNat
  | outOfRangeValue a v =>
    "value 0x" ++ Text.hex 1 v.toNat ++ " does not fit the 4-bit cell at " ++ Text.address a.toNat
  | readDenied a => "device at " ++ Text.address a.toNat ++ " is not readable"
  | writeDenied a => "device at " ++ Text.address a.toNat ++ " is not writable"
  | illegalOpcode w => "illegal opcode " ++ Text.address w.toNat
  | illegalRegisterName n => "illegal register name " ++ Text.quoted n
  | illegalRegisterValue n v =>
    "illegal value " ++ Text.signed v.toInt ++ " for register " ++ n

end Fault

/-! ## Computations that may fault -/

/-- A computation on a state `σ` that may fault. What it did to the state before the fault stays
done, which is why the state is part of the failing outcome too. -/
abbrev Faulting (σ α : Type) := EStateM Fault σ α

namespace Faulting

variable {σ α : Type}

/-- Reads something off the state. -/
def view (read : σ → α) : Faulting σ α := fun s ↦ .ok (read s) s

/-- Consults the state without changing it. -/
def ask (question : σ → Except Fault α) : Faulting σ α := fun s ↦
  match question s with
  | .ok a => .ok a s
  | .error f => .error f s

/-- Changes the state without failing. -/
def update (change : σ → σ) : Faulting σ Unit := fun s ↦ .ok () (change s)

/-- Changes the state if a check allows it, and leaves it alone otherwise. -/
def guarded (check : σ → Except Fault Unit) (change : σ → σ) : Faulting σ Unit := fun s ↦
  match check s with
  | .ok () => .ok () (change s)
  | .error f => .error f s

/-- Takes an outcome that has nothing to do with the state. -/
def ofExcept (outcome : Except Fault α) : Faulting σ α := ask fun _ ↦ outcome

/-- What the computation answers from the given state, the final state forgotten. -/
def answer (action : Faulting σ α) (s : σ) : Except Fault α :=
  match action s with
  | .ok a _ => .ok a
  | .error f _ => .error f

/-- The state an outcome ends in, whether it failed or not. -/
def finalState : EStateM.Result Fault σ α → σ
  | .ok _ s | .error _ s => s

/-! ### What the parts do -/

variable {β : Type}

@[simp] theorem view_apply (read : σ → α) (s : σ) : view read s = .ok (read s) s := rfl

@[simp] theorem update_apply (change : σ → σ) (s : σ) : update change s = .ok () (change s) := rfl

theorem ask_of_ok {question : σ → Except Fault α} {s : σ} {a : α} (h : question s = .ok a) :
    ask question s = .ok a s := by
  rw [ask, h]

theorem ask_of_error {question : σ → Except Fault α} {s : σ} {f : Fault}
    (h : question s = .error f) : ask question s = .error f s := by
  rw [ask, h]

theorem finalState_ask (question : σ → Except Fault α) (s : σ) :
    finalState (ask question s) = s := by
  cases h : question s with
  | ok a => rw [ask_of_ok h, finalState]
  | error f => rw [ask_of_error h, finalState]

theorem guarded_of_ok {check : σ → Except Fault Unit} {s : σ} (change : σ → σ)
    (h : check s = .ok ()) : guarded check change s = .ok () (change s) := by
  rw [guarded, h]

theorem guarded_of_error {check : σ → Except Fault Unit} {s : σ} {f : Fault} (change : σ → σ)
    (h : check s = .error f) : guarded check change s = .error f s := by
  rw [guarded, h]

/-- What follows a success starts from the state that it left. -/
theorem bind_of_ok {x : Faulting σ α} {next : α → Faulting σ β} {s t : σ} {a : α}
    (h : x s = .ok a t) : (x >>= next) s = next a t := by
  change EStateM.bind x next s = next a t
  rw [EStateM.bind, h]

/-- Nothing follows a fault. -/
theorem bind_of_error {x : Faulting σ α} {next : α → Faulting σ β} {s t : σ} {f : Fault}
    (h : x s = .error f t) : (x >>= next) s = .error f t := by
  change EStateM.bind x next s = .error f t
  rw [EStateM.bind, h]

/-- A sequence succeeds only if both of its parts do. -/
theorem exists_of_bind_ok {x : Faulting σ α} {next : α → Faulting σ β} {s u : σ} {b : β}
    (h : (x >>= next) s = .ok b u) : ∃ a t, x s = .ok a t ∧ next a t = .ok b u := by
  cases hx : x s with
  | ok a t => exact ⟨a, t, rfl, (bind_of_ok hx).symm.trans h⟩
  | error f t =>
    rw [bind_of_error hx] at h
    cases h

theorem error_or_of_bind_error {x : Faulting σ α} {next : α → Faulting σ β} {s u : σ} {f : Fault}
    (h : (x >>= next) s = .error f u) :
    x s = .error f u ∨ ∃ a t, x s = .ok a t ∧ next a t = .error f u := by
  cases hx : x s with
  | ok a t => exact .inr ⟨a, t, rfl, (bind_of_ok hx).symm.trans h⟩
  | error g t =>
    rw [bind_of_error hx] at h
    cases h
    exact .inl rfl

/-- The computation never fails. -/
def Safe (x : Faulting σ α) : Prop := ∀ s f t, x s ≠ .error f t

theorem safe_pure (a : α) : Safe (pure a : Faulting σ α) := nofun

theorem safe_view (read : σ → α) : Safe (view read) := nofun

theorem safe_update (change : σ → σ) : Safe (update change) := nofun

/-- If what follows never fails, it was the first part that did. -/
theorem error_of_bind_error {x : Faulting σ α} {next : α → Faulting σ β} {s u : σ} {f : Fault}
    (hnext : ∀ a, Safe (next a)) (h : (x >>= next) s = .error f u) : x s = .error f u := by
  rcases error_or_of_bind_error h with hx | ⟨a, t, -, ht⟩
  · exact hx
  · exact absurd ht (hnext a t f u)

theorem Safe.bind {x : Faulting σ α} {next : α → Faulting σ β} (hx : Safe x)
    (hnext : ∀ a, Safe (next a)) : Safe (x >>= next) :=
  fun s f t h ↦ hx s f t (error_of_bind_error hnext h)

theorem eq_of_ask_ok {question : σ → Except Fault α} {s t : σ} {a : α}
    (h : ask question s = .ok a t) : question s = .ok a ∧ t = s := by
  cases hq : question s with
  | ok b =>
    rw [ask_of_ok hq] at h
    cases h
    exact ⟨rfl, rfl⟩
  | error f =>
    rw [ask_of_error hq] at h
    cases h

theorem eq_of_ask_error {question : σ → Except Fault α} {s t : σ} {f : Fault}
    (h : ask question s = .error f t) : question s = .error f ∧ t = s := by
  cases hq : question s with
  | ok b =>
    rw [ask_of_ok hq] at h
    cases h
  | error g =>
    rw [ask_of_error hq] at h
    cases h
    exact ⟨rfl, rfl⟩

theorem eq_of_guarded_ok {check : σ → Except Fault Unit} {change : σ → σ} {s t : σ} {u : Unit}
    (h : guarded check change s = .ok u t) : check s = .ok () ∧ t = change s := by
  cases hc : check s with
  | ok v =>
    rw [guarded_of_ok change hc] at h
    cases h
    exact ⟨rfl, rfl⟩
  | error g =>
    rw [guarded_of_error change hc] at h
    cases h

theorem eq_of_guarded_error {check : σ → Except Fault Unit} {change : σ → σ} {s t : σ} {f : Fault}
    (h : guarded check change s = .error f t) : check s = .error f ∧ t = s := by
  cases hc : check s with
  | ok u =>
    rw [guarded_of_ok change hc] at h
    cases h
  | error g =>
    rw [guarded_of_error change hc] at h
    cases h
    exact ⟨rfl, rfl⟩

end Faulting

end CalcWatch
