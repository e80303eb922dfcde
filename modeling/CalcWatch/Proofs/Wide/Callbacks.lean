import CalcWatch.Proofs.Wide.Device
import Mathlib.Algebra.BigOperators.Fin

/-!
# Wide accesses by any callback

The bytes of a wide access are served by something that it is handed, a callback with a state of its
own. The access is told by the calls that it makes, and nothing is assumed about what they do.

## Calls in turn

An access of several bytes does not know what is behind an address: it is handed something to call
for a single byte, which may have a state of its own. What the access does is told by its calls, by
their arguments and answers and by the states that they lead through. It stops with the first call
that fails, and no call is made for a byte that would lie behind the last address.

## Bytes in their places

Nothing is assumed about what serves the single bytes: not that it is a device, not that it answers
the same address alike, and not that it refuses the last address. A value is the sum of its bytes in
their places. To put it together in a register with shifts comes to the same, since every byte finds
its place empty, and so does taking it apart there.
-/

namespace CalcWatch

/-! ## Calls in turn -/

section

variable {σ α β γ : Type}

/-- One after the other, the calls with these arguments succeed with these answers, and they lead
from the first state to the second. -/
inductive Calls (call : α → Faulting σ β) : σ → List α → List β → σ → Prop
  | nil (s : σ) : Calls call s [] [] s
  | cons {s t u : σ} {a : α} {b : β} {as : List α} {bs : List β} (hfirst : call a s = .ok b t)
      (hrest : Calls call t as bs u) : Calls call s (a :: as) (b :: bs) u

namespace Calls

variable {call call' : α → Faulting σ β} {s t : σ} {as : List α} {bs : List β} {f : Fault}

theorem length_eq (h : Calls call s as bs t) : bs.length = as.length := by
  induction h with
  | nil => rfl
  | cons _ _ ih => exact congrArg (· + 1) ih

theorem exists_ok_of_mem (h : Calls call s as bs t) {a : α} (ha : a ∈ as) :
    ∃ u b v, call a u = .ok b v := by
  induction h with
  | nil => cases ha
  | cons hfirst _ ih =>
    rcases List.mem_cons.mp ha with rfl | ha
    · exact ⟨_, _, _, hfirst⟩
    · exact ih ha

theorem congr (h : Calls call s as bs t) (hsame : ∀ a ∈ as, call a = call' a) :
    Calls call' s as bs t := by
  induction h with
  | nil => exact .nil _
  | cons hfirst _ ih =>
    rw [List.forall_mem_cons] at hsame
    exact .cons (hsame.1 ▸ hfirst) (ih hsame.2)

theorem map_iff {arg : γ → α} {cs : List γ} :
    Calls call s (cs.map arg) bs t ↔ Calls (fun c ↦ call (arg c)) s cs bs t := by
  constructor
  · intro h
    induction cs generalizing s bs with
    | nil =>
      cases h
      exact .nil _
    | cons c cs ih =>
      cases h with
      | cons hfirst hrest => exact .cons hfirst (ih hrest)
  · intro h
    induction h with
    | nil => exact .nil _
    | cons hfirst _ ih => exact .cons hfirst ih

theorem mapM_eq_ok_iff : as.mapM call s = .ok bs t ↔ Calls call s as bs t := by
  constructor
  · intro h
    induction as generalizing s bs with
    | nil =>
      cases h
      exact .nil _
    | cons a as ih =>
      rw [List.mapM_cons] at h
      obtain ⟨b, u, hfirst, h⟩ := Faulting.exists_of_bind_ok h
      obtain ⟨bs', v, hrest, h⟩ := Faulting.exists_of_bind_ok h
      cases h
      exact .cons hfirst (ih hrest)
  · intro h
    induction h with
    | nil => rfl
    | cons hfirst _ ih =>
      rw [List.mapM_cons, Faulting.bind_of_ok hfirst, Faulting.bind_of_ok ih]
      rfl

/-- No call is made after one that fails. -/
theorem mapM_eq_error_iff : as.mapM call s = .error f t ↔
    ∃ j a, as[j]? = some a ∧ ∃ bs u, Calls call s (as.take j) bs u ∧ call a u = .error f t := by
  constructor
  · intro h
    induction as generalizing s with
    | nil => cases h
    | cons a as ih =>
      rw [List.mapM_cons] at h
      rcases Faulting.error_or_of_bind_error h with hfirst | ⟨b, u, hfirst, h⟩
      · exact ⟨0, a, rfl, [], s, .nil s, hfirst⟩
      rcases Faulting.error_or_of_bind_error h with hrest | ⟨bs, v, -, h⟩
      · obtain ⟨j, refused, hj, bs, v, hcalls, hrefused⟩ := ih hrest
        exact ⟨j + 1, refused, hj, b :: bs, v, .cons hfirst hcalls, hrefused⟩
      · cases h
  · rintro ⟨j, a, hj, bs, u, hcalls, ha⟩
    induction as generalizing s j bs with
    | nil => cases hj
    | cons first as ih =>
      rw [List.mapM_cons]
      cases j with
      | zero =>
        cases hj
        cases hcalls
        exact Faulting.bind_of_error ha
      | succ j =>
        cases hcalls with
        | cons hfirst hrest =>
          rw [Faulting.bind_of_ok hfirst]
          exact Faulting.bind_of_error (ih j hj _ hrest)

end Calls

/-! ### Loops of calls -/

namespace Faulting

section

variable {x : Faulting σ β} {result : β → γ} {s t : σ} {c : γ} {f : Fault}

theorem map_eq_ok_iff : (result <$> x) s = .ok c t ↔ ∃ b, x s = .ok b t ∧ c = result b := by
  rw [map_eq_pure_bind]
  constructor
  · intro h
    obtain ⟨b, u, hx, h⟩ := exists_of_bind_ok h
    cases h
    exact ⟨b, hx, rfl⟩
  · rintro ⟨b, hx, rfl⟩
    exact bind_of_ok hx

theorem map_eq_error_iff : (result <$> x) s = .error f t ↔ x s = .error f t := by
  rw [map_eq_pure_bind]
  constructor
  · intro h
    rcases error_or_of_bind_error h with hx | ⟨b, u, -, h⟩
    · exact hx
    · cases h
  · exact bind_of_error

end

/-- A loop that puts answers together may as well get all of them first. -/
theorem foldlM_eq_mapM (call : α → Faulting σ β) (step : γ → α → β → γ) (as : List α) (x : γ) :
    as.foldlM (fun x a ↦ do
        let b ← call a
        pure (step x a b)) x =
      (fun bs ↦ (as.zip bs).foldl (fun x ab ↦ step x ab.1 ab.2) x) <$> as.mapM call := by
  induction as generalizing x with
  | nil => rfl
  | cons a as ih =>
    simp only [List.foldlM_cons, List.mapM_cons, bind_assoc, pure_bind, ih, map_bind, map_pure]
    simp only [map_eq_pure_bind]
    rfl

theorem forM_eq_mapM (step : α → Faulting σ Unit) (as : List α) :
    as.forM step = (fun _ ↦ ()) <$> as.mapM step := by
  have hloop := foldlM_eq_mapM step (fun _ _ u ↦ u) as ()
  simp only [bind_pure] at hloop
  exact (forM_eq_foldlM as step).trans hloop

theorem forM_congr {step step' : α → Faulting σ Unit} {as : List α}
    (h : ∀ a ∈ as, step a = step' a) : as.forM step = as.forM step' := by
  induction as with
  | nil => rfl
  | cons a as ih =>
    rw [List.forall_mem_cons] at h
    change (step a >>= fun _ ↦ as.forM step) = (step' a >>= fun _ ↦ as.forM step')
    rw [h.1, ih h.2]

/-- What is made of the answers matters only for as many answers as there are calls. -/
theorem map_mapM_congr {call : α → Faulting σ β} {as : List α} {result result' : List β → γ}
    (h : ∀ bs, bs.length = as.length → result bs = result' bs) :
    result <$> as.mapM call = result' <$> as.mapM call := by
  rw [map_eq_pure_bind, map_eq_pure_bind]
  funext s
  cases hbs : as.mapM call s with
  | error f t => rw [bind_of_error hbs, bind_of_error hbs]
  | ok bs t => rw [bind_of_ok hbs, bind_of_ok hbs, h bs (Calls.mapM_eq_ok_iff.mp hbs).length_eq]

end Faulting

/-! ### The bytes of an access -/

section

variable {start : UInt32} {i j n : ℕ} {s t : σ} {f : Fault} {arg : ℕ → α} {bs : List β}

/-- What is done for byte `i` of an access: a call, if there is an address for the byte. -/
def callAt (start : UInt32) (call : ℕ → UInt32 → Faulting σ β) (i : ℕ) : Faulting σ β := do
  call i (← Faulting.ofExcept (byteAddress start i))

variable {call : ℕ → UInt32 → Faulting σ β} {call' : α → Faulting σ β}

theorem callAt_of_lt (h : start.toNat + i < addressCount) :
    callAt start call i = call i (start + UInt32.ofNat i) := by
  rw [callAt, byteAddress_of_lt h]
  rfl

theorem callAt_of_le (h : addressCount ≤ start.toNat + i) (s : σ) :
    callAt start call i s = .error (.unmappedAddress lastAddress) s := by
  rw [callAt, byteAddress, if_neg (Nat.not_lt_of_le h)]
  rfl

theorem callAt_eq_error_iff (hcall : ∀ i, call i (start + UInt32.ofNat i) = call' (arg i))
    (hj : start.toNat + j ≤ addressCount) : callAt start call j s = .error f t ↔
      start.toNat + j < addressCount ∧ call' (arg j) s = .error f t ∨
        start.toNat + j = addressCount ∧ f = .unmappedAddress lastAddress ∧ t = s := by
  rcases Nat.lt_or_eq_of_le hj with hlt | heq
  · rw [callAt_of_lt hlt, hcall]
    simp [hlt, Nat.ne_of_lt hlt]
  · rw [callAt_of_le (Nat.le_of_eq heq.symm)]
    simp [heq, eq_comm]

/-- If the calls for the first bytes have succeeded, there was an address for each of them. -/
theorem calls_callAt_iff (hcall : ∀ i, call i (start + UInt32.ofNat i) = call' (arg i)) :
    Calls (callAt start call) s (List.range j) bs t ↔
      start.toNat + j ≤ addressCount ∧ Calls call' s ((List.range j).map arg) bs t := by
  have hsame : start.toNat + j ≤ addressCount →
      ∀ i ∈ List.range j, callAt start call i = call' (arg i) := by
    intro hj i hi
    rw [List.mem_range] at hi
    rw [callAt_of_lt (by omega), hcall]
  rw [Calls.map_iff]
  constructor
  · intro h
    have hj : start.toNat + j ≤ addressCount := by
      rcases Nat.eq_zero_or_pos j with rfl | hpos
      · exact Nat.le_of_lt start.toNat_lt
      · -- the last call was answered, so it had an address, and those before it all the more
        by_contra hlt
        have hmem : j - 1 ∈ List.range j := List.mem_range.mpr (Nat.sub_one_lt_of_lt hpos)
        obtain ⟨u, b, v, hlast⟩ := h.exists_ok_of_mem hmem
        rw [callAt_of_le (by omega)] at hlast
        cases hlast
    exact ⟨hj, h.congr (hsame hj)⟩
  · rintro ⟨hj, h⟩
    exact h.congr fun i hi ↦ (hsame hj i hi).symm

theorem mapM_callAt_eq_ok_iff (hcall : ∀ i, call i (start + UInt32.ofNat i) = call' (arg i)) :
    (List.range n).mapM (callAt start call) s = .ok bs t ↔
      start.toNat + n ≤ addressCount ∧ Calls call' s ((List.range n).map arg) bs t :=
  Calls.mapM_eq_ok_iff.trans (calls_callAt_iff hcall)

theorem mapM_callAt_eq_error_iff (hcall : ∀ i, call i (start + UInt32.ofNat i) = call' (arg i)) :
    (List.range n).mapM (callAt start call) s = .error f t ↔
      ∃ j < n, start.toNat + j ≤ addressCount ∧
        ∃ answers u, Calls call' s ((List.range j).map arg) answers u ∧
          (start.toNat + j < addressCount ∧ call' (arg j) u = .error f t ∨
            start.toNat + j = addressCount ∧ f = .unmappedAddress lastAddress ∧ t = u) := by
  have hat : ∀ {j}, j < n → (List.range n)[j]? = some j ∧ (List.range n).take j = List.range j := by
    intro j hj
    exact ⟨by simp [hj], by rw [List.take_range, Nat.min_eq_left (Nat.le_of_lt hj)]⟩
  rw [Calls.mapM_eq_error_iff]
  constructor
  · rintro ⟨j, i, hi, answers, u, hcalls, hrefused⟩
    obtain ⟨hj, rfl⟩ : j < n ∧ j = i := by simpa [List.getElem?_eq_some_iff] using hi
    rw [(hat hj).2, calls_callAt_iff hcall] at hcalls
    obtain ⟨hle, hcalls⟩ := hcalls
    exact ⟨j, hj, hle, answers, u, hcalls, (callAt_eq_error_iff hcall hle).mp hrefused⟩
  · rintro ⟨j, hj, hle, answers, u, hcalls, hrefused⟩
    refine ⟨j, j, (hat hj).1, answers, u, ?_, (callAt_eq_error_iff hcall hle).mpr hrefused⟩
    rw [(hat hj).2, calls_callAt_iff hcall]
    exact ⟨hle, hcalls⟩

end

/-- How an access ends that makes a call for each of its bytes, the first of them at `start`. -/
structure CallsInTurn (access : Faulting σ γ) (start : UInt32) (args : List α)
    (call : α → Faulting σ β) (result : List β → γ) : Prop where
  /-- It succeeds if there is an address for every byte and every call succeeds. -/
  completes : ∀ s c t, access s = .ok c t ↔ start.toNat + args.length ≤ addressCount ∧
    ∃ answers, Calls call s args answers t ∧ c = result answers
  /-- Otherwise it stops with the first call that fails, and with its fault, or without a call where
  the address of the next byte would be past the last one. -/
  stops : ∀ s f t, access s = .error f t ↔ ∃ j arg, args[j]? = some arg ∧
    start.toNat + j ≤ addressCount ∧ ∃ answers u, Calls call s (args.take j) answers u ∧
      (start.toNat + j < addressCount ∧ call arg u = .error f t ∨
        start.toNat + j = addressCount ∧ f = .unmappedAddress 0xFFFFFFFF ∧ t = u)

theorem callsInTurn {start : UInt32} {n : ℕ} {arg : ℕ → α} {call : ℕ → UInt32 → Faulting σ β}
    {call' : α → Faulting σ β} (result : List β → γ)
    (hcall : ∀ i, call i (start + UInt32.ofNat i) = call' (arg i)) :
    CallsInTurn (result <$> (List.range n).mapM (callAt start call)) start ((List.range n).map arg)
      call' result where
  completes s c t := by
    simp only [Faulting.map_eq_ok_iff, mapM_callAt_eq_ok_iff hcall, List.length_map,
      List.length_range, and_assoc, exists_and_left]
  stops s f t := by
    rw [Faulting.map_eq_error_iff, mapM_callAt_eq_error_iff hcall]
    constructor
    · rintro ⟨j, hj, hle, answers, u, hcalls, hrefused⟩
      refine ⟨j, arg j, by simp [hj], hle, answers, u, ?_, hrefused⟩
      rwa [← List.map_take, List.take_range, Nat.min_eq_left (Nat.le_of_lt hj)]
    · rintro ⟨j, a, ha, hle, answers, u, hcalls, hrefused⟩
      obtain ⟨hj, rfl⟩ : j < n ∧ arg j = a := by simpa [List.getElem?_eq_some_iff] using ha
      rw [← List.map_take, List.take_range, Nat.min_eq_left (Nat.le_of_lt hj)] at hcalls
      exact ⟨j, hj, hle, answers, u, hcalls, hrefused⟩

end

/-! ## Bytes in their places -/

namespace ByteOrder

variable {order : ByteOrder} {n k v : ℕ} {σ : Type}

/-! ### Bytes in a register -/

theorem place_lt (order : ByteOrder) (hk : k < n) : order.place n k < n := by
  cases order with
  | little => exact hk
  | big => exact Nat.lt_of_le_of_lt (Nat.sub_le _ _) (Nat.sub_one_lt_of_lt hk)

theorem weight_eq (place : ℕ) : weight place = 2 ^ (8 * place) := (pow_mul 2 8 place).symm

/-- The amount of a shift by whole bytes is not cut off. -/
theorem toNat_shiftAmount {place : ℕ} (h : place < 8) :
    (UInt64.ofNat (8 * place)).toNat % 64 = 8 * place := by
  rw [UInt64.toNat_ofNat_of_lt' (by omega : 8 * place < 2 ^ 64)]
  omega

theorem toNat_shifted (byte : UInt8) {place : ℕ} (h : place < 8) :
    (byte.toUInt64 <<< UInt64.ofNat (8 * place)).toNat = byte.toNat * weight place := by
  have hfits : byte.toNat * 2 ^ (8 * place) < 2 ^ 64 := by
    calc byte.toNat * 2 ^ (8 * place) < 2 ^ 8 * 2 ^ (8 * place) :=
          Nat.mul_lt_mul_of_pos_right byte.toNat_lt (Nat.two_pow_pos _)
      _ = 2 ^ (8 + 8 * place) := (pow_add 2 8 _).symm
      _ ≤ 2 ^ 64 := Nat.pow_le_pow_right (by decide) (by omega)
  rw [UInt64.toNat_shiftLeft, UInt8.toNat_toUInt64, toNat_shiftAmount h, Nat.shiftLeft_eq,
    Nat.mod_eq_of_lt hfits, weight_eq]

theorem toUInt8_shifted (v : UInt64) {place : ℕ} (h : place < 8) :
    (v >>> UInt64.ofNat (8 * place)).toUInt8 = byteAt v.toNat place := by
  rw [← UInt8.toNat_inj, UInt64.toNat_toUInt8, UInt64.toNat_shiftRight, toNat_shiftAmount h,
    Nat.shiftRight_eq_div_pow, toNat_byteAt, pow_mul]
  rfl

/-- The first `k` of `n` bytes are in their places, and the places of the others are empty. -/
def Vacant (order : ByteOrder) (n k v : ℕ) : Prop :=
  match order with
  | little => v < 2 ^ (8 * k)
  | big => 2 ^ (8 * (n - k)) ∣ v

/-- A byte that is put into its empty place does not disturb the others. -/
theorem Vacant.or_eq (h : order.Vacant n k v) (hk : k < n) (byte : UInt8) :
    v ||| byte.toNat * weight (order.place n k) = v + byte.toNat * weight (order.place n k) ∧
      order.Vacant n (k + 1) (v + byte.toNat * weight (order.place n k)) := by
  have hbyte : byte.toNat < 2 ^ 8 := byte.toNat_lt
  rw [weight_eq, Nat.mul_comm byte.toNat]
  cases order with
  | little =>
    -- the bytes that are there lie below the new one
    have hv : v < 2 ^ (8 * k) := h
    refine ⟨?_, ?_⟩
    · rw [Nat.or_comm, Nat.add_comm]
      exact (Nat.two_pow_add_eq_or_of_lt hv _).symm
    · change v + 2 ^ (8 * k) * byte.toNat < 2 ^ (8 * (k + 1))
      calc v + 2 ^ (8 * k) * byte.toNat < 2 ^ (8 * k) * (byte.toNat + 1) := by linarith
        _ ≤ 2 ^ (8 * k) * 2 ^ 8 := Nat.mul_le_mul_left _ hbyte
        _ = 2 ^ (8 * (k + 1)) := (pow_add 2 (8 * k) 8).symm
  | big =>
    -- the bytes that are there lie above the new one
    obtain ⟨q, rfl⟩ := h
    have hplace : 8 * (n - k) = 8 * (n - 1 - k) + 8 := by omega
    refine ⟨?_, ?_⟩
    · refine (Nat.two_pow_add_eq_or_of_lt ?_ _).symm
      rw [hplace, pow_add]
      exact Nat.mul_lt_mul_of_pos_left hbyte (Nat.two_pow_pos _)
    · change 2 ^ (8 * (n - (k + 1))) ∣ _ + 2 ^ (8 * (n - 1 - k)) * _
      rw [Nat.sub_add_eq n k 1, Nat.sub_right_comm, hplace, pow_add, Nat.mul_assoc]
      exact Nat.dvd_add (Nat.dvd_mul_right _ _) (Nat.dvd_mul_right _ _)

theorem toNat_foldl_or (hn : n ≤ 8) (bytes : List UInt8) (hk : k + bytes.length = n) (w : UInt64)
    (hw : order.Vacant n k w.toNat) :
    (((List.range' k bytes.length).zip bytes).foldl (fun w ib ↦
        w ||| ib.2.toUInt64 <<< UInt64.ofNat (8 * order.place n ib.1)) w).toNat =
      ((List.range' k bytes.length).zip bytes).foldl (fun v ib ↦
        v + ib.2.toNat * weight (order.place n ib.1)) w.toNat := by
  -- over all registers with empty places, since the first byte has filled one of them
  induction bytes generalizing k w with
  | nil => rfl
  | cons byte bytes ih =>
    rw [List.length_cons] at hk
    have hlt : k < n := by omega
    obtain ⟨hor, hnext⟩ := hw.or_eq hlt byte
    have hstep : (w ||| byte.toUInt64 <<< UInt64.ofNat (8 * order.place n k)).toNat =
        w.toNat + byte.toNat * weight (order.place n k) := by
      rw [UInt64.toNat_or, toNat_shifted byte ((order.place_lt hlt).trans_le hn), hor]
    rw [List.length_cons, List.range'_succ, List.zip_cons_cons, List.foldl_cons, List.foldl_cons,
      ih (by omega) _ (hstep ▸ hnext), hstep]

/-! ### Wide accesses as calls -/

variable (order) (width : Width) (start : UInt32)

/-- Reads the bytes from `start` upwards and puts them into their places in a register. -/
def composeInRegister (read : UInt32 → Faulting σ UInt8) : Faulting σ UInt64 :=
  (List.range width.bytes).foldlM (fun value i ↦ do
    let byte ← read (← Faulting.ofExcept (byteAddress start i))
    pure (value ||| byte.toUInt64 <<< UInt64.ofNat (8 * order.place width.bytes i))) 0

/-- Shifts the bytes of a register down and writes them from `start` upwards. -/
def decomposeInRegister (value : UInt64) (write : UInt32 → UInt8 → Faulting σ Unit) :
    Faulting σ Unit :=
  (List.range width.bytes).forM fun i ↦ do
    write (← Faulting.ofExcept (byteAddress start i))
      (value >>> UInt64.ofNat (8 * order.place width.bytes i)).toUInt8

theorem compose_eq_mapM (read : UInt32 → Faulting σ UInt8) :
    order.compose width start read =
      order.value <$> (List.range width.bytes).mapM (callAt start fun _ a ↦ read a) := by
  have hloop := Faulting.foldlM_eq_mapM (callAt start fun _ a ↦ read a)
    (fun v i byte ↦ v + byte.toNat * weight (order.place width.bytes i))
    (List.range width.bytes) 0
  simp only [callAt, bind_assoc] at hloop
  refine hloop.trans (Faulting.map_mapM_congr fun bytes hlength ↦ ?_)
  rw [List.length_range] at hlength
  rw [← hlength, order.foldl_zip_range]

theorem toNat_composeInRegister (read : UInt32 → Faulting σ UInt8) :
    UInt64.toNat <$> order.composeInRegister width start read =
      order.value <$> (List.range width.bytes).mapM (callAt start fun _ a ↦ read a) := by
  have hloop := Faulting.foldlM_eq_mapM (callAt start fun _ a ↦ read a)
    (fun w i byte ↦ w ||| byte.toUInt64 <<< UInt64.ofNat (8 * order.place width.bytes i))
    (List.range width.bytes) 0
  simp only [callAt, bind_assoc] at hloop
  refine (congrArg (UInt64.toNat <$> ·) hloop).trans ?_
  rw [Functor.map_map]
  refine Faulting.map_mapM_congr fun bytes hlength ↦ ?_
  rw [List.length_range] at hlength
  have hempty : order.Vacant width.bytes 0 (0 : UInt64).toNat := by
    cases order with
    | little => exact Nat.one_pos
    | big => exact Nat.dvd_zero _
  have hsum := toNat_foldl_or width.bytes_le bytes (by rw [hlength, Nat.zero_add]) 0 hempty
  rw [hlength, ← List.range_eq_range'] at hsum
  refine hsum.trans ?_
  rw [← order.foldl_zip_range, hlength]
  rfl

theorem decompose_eq_mapM (v : ℕ) (write : UInt32 → UInt8 → Faulting σ Unit) :
    order.decompose width start v write =
      (fun _ ↦ ()) <$> (List.range width.bytes).mapM
        (callAt start fun i a ↦ write a (byteAt v (order.place width.bytes i))) :=
  Faulting.forM_eq_mapM _ _

theorem decompose_toNat (v : UInt64) (write : UInt32 → UInt8 → Faulting σ Unit) :
    order.decompose width start v.toNat write = order.decomposeInRegister width start v write := by
  refine Faulting.forM_congr fun i hi ↦ ?_
  rw [toUInt8_shifted v ((order.place_lt (List.mem_range.mp hi)).trans_le width.bytes_le)]

/-- The addresses of an access ascend, and no address is met twice. -/
theorem map_toNat_addresses {j : ℕ} (hj : j ≤ width.bytes) (hend : start.toNat + j ≤ addressCount) :
    ((width.addresses start).take j).map UInt32.toNat = List.range' start.toNat j := by
  refine List.ext_getElem (by simp [Width.addresses, hj]) fun i hi hi' ↦ ?_
  rw [List.length_range'] at hi'
  simp only [Width.addresses, List.getElem_map, List.getElem_take, List.getElem_range,
    List.getElem_range', Nat.one_mul]
  exact toNat_add_ofNat (by omega)

/-! ### Sums of bytes -/

/-- The sum of the bytes, each of them with the weight of its place. -/
def positional : ByteOrder → List UInt8 → ℕ
  | little, bytes => ∑ i, (bytes.get i).toNat * 256 ^ (i : ℕ)
  | big, bytes => ∑ i, (bytes.get i).toNat * 256 ^ (bytes.length - 1 - i)

theorem value_eq_positional (bytes : List UInt8) : order.value bytes = order.positional bytes := by
  have hterms : ((List.range bytes.length).zip bytes).map
        (fun ib ↦ ib.2.toNat * weight (order.place bytes.length ib.1)) =
      List.ofFn fun i ↦ (bytes.get i).toNat * weight (order.place bytes.length i) :=
    List.ext_getElem (by simp) fun i _ _ ↦ by simp
  have hsum := order.foldl_zip_range bytes
  rw [← List.foldl_map, ← List.sum_eq_foldl, hterms, List.sum_ofFn] at hsum
  rw [← hsum]
  cases order <;> rfl

theorem callsInTurn_compose (read : UInt32 → Faulting σ UInt8) :
    CallsInTurn (order.compose width start read) start (width.addresses start) read
      order.positional := by
  rw [compose_eq_mapM, funext order.value_eq_positional]
  exact callsInTurn _ fun _ ↦ rfl

theorem callsInTurn_decompose (v : ℕ) (write : UInt32 → UInt8 → Faulting σ Unit) :
    CallsInTurn (order.decompose width start v write) start (order.stores width start v)
      (fun store ↦ write store.1 store.2) fun _ ↦ () := by
  rw [decompose_eq_mapM, stores_eq_map]
  exact callsInTurn _ fun _ ↦ rfl

theorem positional_stores (v : ℕ) :
    order.positional ((order.stores width start v).map Prod.snd) = v % 256 ^ width.bytes := by
  have hbytes : (order.stores width start v).map Prod.snd = order.split width.bytes v := by
    rw [stores_eq_map, List.map_map]
    rfl
  rw [← value_eq_positional, hbytes, value_split]

/-- What a wide access does with a callback, whatever that is. -/
structure ServesCallbacks : Prop where
  /-- The addresses ascend by one, as far as there are any. -/
  ascending : ∀ j ≤ width.bytes, start.toNat + j ≤ addressCount →
    ((width.addresses start).take j).map UInt32.toNat = List.range' start.toNat j
  /-- A value is read by calls at the addresses, and it is the sum of the answers. -/
  reads : ∀ {σ : Type} (read : UInt32 → Faulting σ UInt8),
    CallsInTurn (order.compose width start read) start (width.addresses start) read
      order.positional
  /-- A value is written by calls with the addresses and the bytes that go there. -/
  writes : ∀ {σ : Type} (v : ℕ) (write : UInt32 → UInt8 → Faulting σ Unit),
    CallsInTurn (order.decompose width start v write) start (order.stores width start v)
      (fun store ↦ write store.1 store.2) fun _ ↦ ()
  /-- There is one byte for each address. -/
  stores : ∀ v, (order.stores width start v).map Prod.fst = width.addresses start
  /-- Where the bytes of a value are the answers, the value is read, as far as they reach. -/
  recomposes : ∀ {σ : Type} (read : UInt32 → Faulting σ UInt8) (v : ℕ) (a : UInt32) (s t : σ),
    a.toNat + width.bytes ≤ addressCount →
    Calls read s (width.addresses a) ((order.stores width start v).map Prod.snd) t →
    order.compose width a read s = .ok (v % 256 ^ width.bytes) t
  /-- Values are put together as they are in a register. -/
  composesInRegister : ∀ {σ : Type} (read : UInt32 → Faulting σ UInt8),
    order.compose width start read = UInt64.toNat <$> order.composeInRegister width start read
  /-- Values are taken apart as they are in a register. -/
  decomposesInRegister : ∀ {σ : Type} (v : UInt64) (write : UInt32 → UInt8 → Faulting σ Unit),
    order.decompose width start v.toNat write = order.decomposeInRegister width start v write

/-- **Wide accesses serve any callback** byte by byte, at ascending addresses, until it fails or the
addresses end. -/
theorem servesCallbacks : order.ServesCallbacks width start where
  ascending _ := map_toNat_addresses width start
  reads := order.callsInTurn_compose width start
  writes := order.callsInTurn_decompose width start
  stores := order.map_fst_stores width start
  recomposes read v a s t ha hcalls := by
    have hlength : (width.addresses a).length = width.bytes := by simp [Width.addresses]
    refine ((order.callsInTurn_compose width a read).completes s _ t).mpr ⟨?_, _, hcalls, ?_⟩
    · rwa [hlength]
    · exact (order.positional_stores width start v).symm
  composesInRegister read := by rw [compose_eq_mapM, toNat_composeInRegister]
  decomposesInRegister := order.decompose_toNat width start

-- a callback that writes down where it is called, and refuses addresses from eight on
example : little.compose .word 6 (fun a calls ↦
      if a < 8 then .ok 0 (calls ++ [a]) else .error (.unmappedAddress a) (calls ++ [a])) [] =
    .error (.unmappedAddress 8) [6, 7, 8] := rfl

-- a callback that refuses nothing
example : big.compose .word 0xFFFFFFFE (fun a calls ↦ .ok 0 (calls ++ [a])) [] =
    .error (.unmappedAddress 0xFFFFFFFF) [0xFFFFFFFE, 0xFFFFFFFF] := rfl

end ByteOrder

end CalcWatch
