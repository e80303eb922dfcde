import CalcWatch.Machine.Inspect
import CalcWatch.Proofs.Bus.Refusals
import CalcWatch.Proofs.Interrupts.Controller
import CalcWatch.Proofs.Runs.Stimuli
import Mathlib.Algebra.Group.Int.Defs

/-!
# Faults and listings are true

A debugger relies on three things: that a fault tells what is wrong with the machine, that the
instruction it is shown is the one that is executed, and that a listing shows the memory.

## What the fault of a step says

Who looks into a fault looks at the machine that the step has left, or at the one it started from.
A step fails because an access to a bus is refused or because the word at the program counter is
illegal, and either machine bears the fault out: the devices are the same before and after, and
where the word is illegal nothing has changed at all.

## What a debugger is shown is what is executed

A debugger asks for the instruction at the program counter without taking a step. It fetches the
same two bytes in the same order and classifies the same word as a step does, so unless an interrupt
is due, either the step stops where the debugger was refused, or it executes the very instruction
that the debugger was shown. What can go wrong after that is an access to a bus.

## What a listing shows

The rows of a listing stand two bytes apart, whichever of them can be shown: a row whose word cannot
be fetched is left out, and the others stay where they are. Rows are counted in integers and their
addresses modulo 2^16, so a listing may begin before the first address, go on after the last one,
and come round more than once. What a row says about its word is what a debugger is told at the
address of the row.
-/

namespace CalcWatch

/-! ## What the fault of a step says -/

namespace Machine

variable {m m' : Machine} {f : Fault}

/-! ### What a machine bears out -/

/-- The machine is as a fault says. -/
structure BearsOut (m : Machine) (f : Fault) : Prop where
  /-- Nothing was wrong with a request of a debugger. -/
  faultClass : f.faultClass ≠ .introspection
  /-- An illegal word stands at the program counter, the high byte first, and the table has no entry
  for it. -/
  opcode : ∀ word, f = .illegalOpcode word → ∃ high low : UInt8,
    m.memory.read m.control.pc.toUInt32 = .ok high ∧
    m.memory.read (m.control.pc + 1).toUInt32 = .ok low ∧
    word.toNat = 256 * high.toNat + low.toNat ∧
    ∀ entry ∈ opcodeTable, entry.covers word = false
  /-- An address is one that programs can use, and the bus is as the fault says. -/
  address : ∀ a, f.address? = some a → a.toNat < addressLimit ∧
    (m.memory.BearsOut f ∨ (a = 0 ∨ a = 1) ∧ m.ports.BearsOut f)

theorem Refuses.exists_address (h : m.Refuses f) : ∃ a, f.address? = some a ∧
    a.toNat < addressLimit ∧ (m.memory.BearsOut f ∨ (a = 0 ∨ a = 1) ∧ m.ports.BearsOut f) := by
  cases h with
  | read a h =>
    obtain ⟨haddress, hmemory⟩ := Bus.bearsOut_of_read_error h
    exact ⟨_, haddress, toUInt32_lt_addressLimit a, .inl hmemory⟩
  | write a value h =>
    obtain ⟨haddress, hmemory⟩ := Bus.bearsOut_of_write_error h
    exact ⟨_, haddress, toUInt32_lt_addressLimit a, .inl hmemory⟩
  | receive h =>
    obtain ⟨haddress, hports⟩ := Bus.bearsOut_of_read_error h
    exact ⟨_, haddress, by decide, .inr ⟨.inr rfl, hports⟩⟩
  | send value hport h =>
    obtain ⟨haddress, hports⟩ := Bus.bearsOut_of_write_error h
    exact ⟨_, haddress, by rcases hport with rfl | rfl <;> decide, .inr ⟨hport, hports⟩⟩

theorem Refuses.faultClass_eq (h : m.Refuses f) : f.faultClass = .bus := by
  obtain ⟨a, haddress, -⟩ := h.exists_address
  rw [← Fault.isSome_address?, haddress, Option.isSome_some]

/-- A refused access is borne out by every machine with the same devices. -/
theorem Refuses.bearsOut (h : m'.Refuses f) (hmemory : m.memory.blank = m'.memory.blank)
    (hports : m.ports.blank = m'.ports.blank) : m.BearsOut f where
  faultClass := by
    rw [h.faultClass_eq]
    decide
  opcode := by
    rintro word rfl
    cases h.faultClass_eq
  address a ha := by
    obtain ⟨b, hb, hlt, hbus⟩ := h.exists_address
    obtain rfl : b = a := Option.some.inj (hb.symm.trans ha)
    exact ⟨hlt, hbus.imp (.of_blank hmemory) (And.imp_right (.of_blank hports))⟩

theorem exists_bytes_of_fetch {a word : UInt16} (h : m.fetch a = .ok word) :
    ∃ high low, m.memoryByte a = .ok high ∧ m.memoryByte (a + 1) = .ok low ∧
      word.toNat = 256 * high.toNat + low.toNat := by
  rw [fetch] at h
  cases hhigh : m.memoryByte a with
  | error g =>
    rw [hhigh] at h
    cases h
  | ok high =>
    cases hlow : m.memoryByte (a + 1) with
    | error g =>
      rw [hhigh, hlow] at h
      cases h
    | ok low =>
      rw [hhigh, hlow] at h
      cases h
      exact ⟨high, low, rfl, rfl, toNat_joined high low⟩

theorem bearsOut_of_decode_error {word : UInt16} (hfetch : m.fetch m.control.pc = .ok word)
    (hdecode : Instruction.decode word = .error f) : m.BearsOut f := by
  obtain ⟨high, low, hhigh, hlow, hword⟩ := exists_bytes_of_fetch hfetch
  obtain rfl := Instruction.eq_illegalOpcode_of_decode hdecode
  constructor
  case faultClass => exact FaultClass.noConfusion
  case opcode =>
    intro other hother
    cases hother
    exact ⟨high, low, hhigh, hlow, hword, fun _ ↦ Instruction.covers_eq_false_of_decode hdecode⟩
  case address => nofun

/-! ### Steps -/

theorem nextInstruction_error_cases (h : m.nextInstruction = .error f) :
    m.Refuses f ∨
      ∃ word, m.fetch m.control.pc = .ok word ∧ Instruction.decode word = .error f := by
  rw [nextInstruction] at h
  cases hfetch : m.fetch m.control.pc with
  | error g =>
    rw [hfetch] at h
    cases h
    exact .inl (refuses_of_fetch hfetch)
  | ok word =>
    rw [hfetch] at h
    exact .inr ⟨word, rfl, h⟩

/-- A step that fails leaves a machine that refuses an access, or it has not changed the machine,
which stands before an illegal word. -/
theorem refuses_of_step_error (h : step m = .error f m') :
    m'.Refuses f ∨
      m' = m ∧ ∃ word, m.fetch m.control.pc = .ok word ∧ Instruction.decode word = .error f := by
  rcases step_error_cases h with ⟨source, -, henter⟩ | ⟨-, hfault, rfl⟩ | ⟨inst, -, -, hperform⟩
  · obtain ⟨stored, refused, rest, memory, hstores, -, hrefused, rfl⟩ :=
      exists_of_enterService_error henter
    exact .inl (refuses_of_store (fun _ ↦ exists_of_mem_wordStores) hstores hrefused)
  · exact (nextInstruction_error_cases hfault).imp_right fun hillegal ↦ ⟨rfl, hillegal⟩
  · exact .inl (perform_stopped hperform).1

/-- **Faults tell the truth.** The machine that a step has failed on bears its fault out, and so
does the machine that the step has left. -/
theorem bearsOut_of_step_error (h : step m = .error f m') : m.BearsOut f ∧ m'.BearsOut f := by
  obtain ⟨stored, sent, -, -, hmemory, hports⟩ := exists_writes_stepped m
  rw [stepped_of_error h] at hmemory hports
  rcases refuses_of_step_error h with hrefuses | ⟨rfl, word, hfetch, hdecode⟩
  · constructor
    · exact hrefuses.bearsOut (Bus.blank_of_writeAll hmemory).symm
        (Bus.blank_of_writeAll hports).symm
    · exact hrefuses.bearsOut rfl rfl
  · have hillegal := bearsOut_of_decode_error hfetch hdecode
    exact ⟨hillegal, hillegal⟩

/-- A machine that calls with digits for a stack: `CALL 0x1554`, with room for two digits below the
stack pointer. -/
private def cramped (sp : UInt16) (digit : UInt8) : Machine where
  control := { sp }
  memory := ⟨"memory",
    [.store { range := .between 0x1800 0x1802, cells := .replicate _ 0xAA },
      .store { range := .between 0x1FFE 0x2000, width := .nibble, cells := #v[digit, 0] }]⟩
  ports := ⟨"io", []⟩

theorem bearsOut_of_step_error_cramped :
    step (cramped 0x2000 0) = .error (.outOfRangeValue 0x1FFF 0x18) (cramped 0x1FFE 2) ∧
      (cramped 0x2000 0).BearsOut (.outOfRangeValue 0x1FFF 0x18) ∧
      (cramped 0x1FFE 2).BearsOut (.outOfRangeValue 0x1FFF 0x18) := by
  have hstep : step (cramped 0x2000 0)
      = .error (.outOfRangeValue 0x1FFF 0x18) (cramped 0x1FFE 2) := rfl
  exact ⟨hstep, bearsOut_of_step_error hstep⟩

end Machine

/-! ## What a debugger is shown is what is executed -/

namespace Row

theorem text_ofWord (a word : UInt16) : (ofWord a word).text = disassemble word := by
  rw [disassemble, ofWord, ofWord]
  cases Instruction.decode word <;> rfl

theorem length_ofWord (a word : UInt16) : (ofWord a word).length = instructionBytes := by
  rw [ofWord]
  cases Instruction.decode word <;> rfl

end Row

namespace Machine

variable {m m' : Machine} {f : Fault} {inst : Instruction}

theorem eq_of_nextInstruction_ok (h : m.nextInstruction = .ok inst) :
    m.fetch m.control.pc = .ok inst.word ∧ Instruction.decode inst.word = .ok inst := by
  cases hfetch : m.fetch m.control.pc with
  | error f =>
    rw [nextInstruction, hfetch] at h
    cases h
  | ok word =>
    rw [nextInstruction, hfetch] at h
    have hdecode : Instruction.decode word = .ok inst := h
    rw [Instruction.word_eq_of_decode hdecode]
    exact ⟨rfl, hdecode⟩

/-- A debugger is shown the instruction that comes next, and is refused where there is none. -/
theorem decodeAt_pc (m : Machine) : m.decodeAt m.control.pc
    = m.nextInstruction.map fun inst ↦ (disassemble inst.word, instructionBytes) := by
  rw [decodeAt, nextInstruction]
  cases m.fetch m.control.pc with
  | error f => rfl
  | ok word =>
    change (do
        let _ ← Instruction.decode word
        pure ((Row.ofWord m.control.pc word).text, (Row.ofWord m.control.pc word).length))
      = (Instruction.decode word).map _
    rw [Row.text_ofWord, Row.length_ofWord]
    cases hdecode : Instruction.decode word with
    | error f => rfl
    | ok inst =>
      rw [← Instruction.word_eq_of_decode hdecode]
      rfl

/-- An instruction that has been decoded is not found illegal afterwards. -/
theorem faultClass_of_execute_error (h : execute inst m = .error f m') : f.faultClass = .bus :=
  (perform_stopped (perform_of_execute_error h)).1.faultClass_eq

/-- **What a debugger is shown is what is executed**, as long as no interrupt is due. -/
theorem step_of_decodeAt
    (hdue : m.interrupts.servicing = true ∨ ∀ source, m.interrupts.isPending source = false) :
    (∀ f, m.decodeAt m.control.pc = .error f → step m = .error f m) ∧
      ∀ text length, m.decodeAt m.control.pc = .ok (text, length) → length = 2 ∧
        ∃ word inst, m.fetch m.control.pc = .ok word ∧ Instruction.decode word = .ok inst ∧
          text = disassemble word ∧ step m = (execute inst >>= fun _ ↦ pure length) m ∧
          ((∃ m', step m = .ok length m') ∨
            ∃ f m', step m = .error f m' ∧ f.faultClass = .bus) := by
  have hnone := InterruptController.next?_eq_none_iff.mpr hdue
  rw [decodeAt_pc]
  cases hinst : m.nextInstruction with
  | error g =>
    refine ⟨fun f h ↦ ?_, nofun⟩
    cases h
    exact step_of_nextInstruction_error hnone hinst
  | ok inst =>
    refine ⟨nofun, fun text length h ↦ ?_⟩
    cases h
    obtain ⟨hfetch, hdecode⟩ := eq_of_nextInstruction_ok hinst
    have hstep := step_of_nextInstruction_ok hnone hinst
    refine ⟨rfl, inst.word, inst, hfetch, hdecode, rfl, hstep, ?_⟩
    cases hexecute : execute inst m with
    | ok u m' =>
      rw [Faulting.bind_of_ok hexecute] at hstep
      exact .inl ⟨m', hstep⟩
    | error f m' =>
      rw [Faulting.bind_of_error hexecute] at hstep
      exact .inr ⟨f, m', hstep, faultClass_of_execute_error hexecute⟩

/-- A machine in the service of an interrupt, with every source pending and one word in memory,
`MOV R1, R12`. -/
private def inspected (pc : UInt16) : Machine where
  control := { pc }
  interrupts := { pending := 0x3F, servicing := true }
  memory := ⟨"memory", [.store { range := .between 0x1800 0x1802, cells := .replicate _ 0x2C }]⟩
  ports := ⟨"io", []⟩

theorem step_of_decodeAt_mov :
    (inspected 0x1800).decodeAt 0x1800 = .ok ("MOV R1, R12", 2) ∧
      (∃ word inst, (inspected 0x1800).fetch 0x1800 = .ok word ∧
        Instruction.decode word = .ok inst ∧ "MOV R1, R12" = disassemble word ∧
        step (inspected 0x1800) = (execute inst >>= fun _ ↦ pure 2) (inspected 0x1800)) ∧
      (inspected 0x1802).decodeAt 0x1802 = .error (.unmappedAddress 0x1802) ∧
      step (inspected 0x1802) = .error (.unmappedAddress 0x1802) (inspected 0x1802) := by
  have hservicing : ∀ pc, (inspected pc).interrupts.servicing = true := fun _ ↦ rfl
  have hshown : (inspected 0x1800).decodeAt 0x1800 = .ok ("MOV R1, R12", 2) := by decide
  have hrefused : (inspected 0x1802).decodeAt 0x1802 = .error (.unmappedAddress 0x1802) := rfl
  obtain ⟨-, word, inst, hfetch, hdecode, htext, hstep, -⟩ :=
    (step_of_decodeAt (.inl (hservicing 0x1800))).2 _ _ hshown
  refine ⟨hshown, ⟨word, inst, hfetch, hdecode, htext, hstep⟩, hrefused, ?_⟩
  exact (step_of_decodeAt (.inl (hservicing 0x1802))).1 _ hrefused

end Machine

/-! ## What a listing shows -/

/-! ### Lists with gaps -/

/-- What is left of a list after some elements were mapped and the others dropped, beside the
elements that it is left of. -/
theorem forall₂_filter_filterMap {α β : Type} (f : α → Option β) (as : List α) :
    List.Forall₂ (fun a b ↦ f a = some b) (as.filter fun a ↦ (f a).isSome) (as.filterMap f) := by
  induction as with
  | nil => exact .nil
  | cons a as ih =>
    cases ha : f a with
    | none => rwa [List.filterMap_cons_none ha, List.filter_cons_of_neg (by simp [ha])]
    | some b =>
      rw [List.filterMap_cons_some ha, List.filter_cons_of_pos (by simp [ha])]
      exact .cons ha ih

/-! ### Rows -/

namespace Row

variable (a word : UInt16)

theorem address_ofWord : (ofWord a word).address = a := by
  rw [ofWord]
  cases Instruction.decode word <;> rfl

theorem word_ofWord : (ofWord a word).word = word := by
  rw [ofWord]
  cases Instruction.decode word <;> rfl

end Row

namespace Machine

variable {m : Machine} {a word center before after : UInt16} {row : Row} {i : ℕ}

/-- Both bytes of a word can be read, the high one at an address and the low one after it. -/
def HoldsWord (m : Machine) (a word : UInt16) : Prop :=
  ∃ high low, m.memoryByte a = .ok high ∧ m.memoryByte (a + 1) = .ok low ∧
    word.toNat = 256 * high.toNat + low.toNat

theorem fetch_eq_ok_iff : m.fetch a = .ok word ↔ m.HoldsWord a word := by
  refine ⟨exists_bytes_of_fetch, fun ⟨high, low, hhigh, hlow, hword⟩ ↦ ?_⟩
  have hjoined : high.toUInt16 <<< 8 ||| low.toUInt16 = word :=
    UInt16.toNat_inj.mp ((toNat_joined high low).trans hword.symm)
  rw [fetch, hhigh, hlow, ← hjoined]
  rfl

theorem rowAt?_eq_some_iff :
    m.rowAt? a = some row ↔ ∃ word, m.HoldsWord a word ∧ row = .ofWord a word := by
  simp only [← fetch_eq_ok_iff, rowAt?]
  cases m.fetch a <;> simp [eq_comm]

/-- Row `i` of a listing that begins `before` rows ahead of `center`. -/
structure IsRow (m : Machine) (center before : UInt16) (i : ℕ) (row : Row) : Prop where
  /-- A row takes two bytes, and addresses are counted modulo 2^16. -/
  address : (row.address.toNat : ℤ) = (center.toNat + 2 * (i - before.toNat)) % 2 ^ 16
  /-- The word is the one that is fetched there. -/
  word : m.HoldsWord row.address row.word
  /-- The row says about the word what is said about it anywhere. -/
  eq_ofWord : row = .ofWord row.address row.word

theorem toNat_rowAddress (center before : UInt16) (i : ℕ) :
    ((rowAddress center before i).toNat : ℤ) =
      (center.toNat + 2 * (i - before.toNat)) % 2 ^ 16 := by
  have htwo : instructionBytes.toUInt16.toNat = 2 := rfl
  have hcenter := center.toNat_lt
  have hbefore := before.toNat_lt
  rw [rowAddress, UInt16.toNat_add, UInt16.toNat_sub, UInt16.toNat_mul, UInt16.toNat_mul,
    UInt16.toNat_ofNat', htwo]
  omega

theorem isRow_iff :
    m.IsRow center before i row ↔ m.rowAt? (rowAddress center before i) = some row := by
  rw [rowAt?_eq_some_iff]
  constructor
  · rintro ⟨haddress, hword, heq⟩
    have ha : row.address = rowAddress center before i := by
      rw [← UInt16.toNat_inj, ← Int.natCast_inj, haddress, toNat_rowAddress]
    exact ⟨row.word, ha ▸ hword, heq.trans (congrArg (Row.ofWord · row.word) ha)⟩
  · rintro ⟨word, hword, rfl⟩
    refine ⟨?_, ?_, ?_⟩
    · rw [Row.address_ofWord, toNat_rowAddress]
    · rwa [Row.address_ofWord, Row.word_ofWord]
    · rw [Row.address_ofWord, Row.word_ofWord]

/-! ### The row of the center -/

theorem rowAddress_center (center before : UInt16) :
    rowAddress center before before.toNat = center := by
  have hcenter := center.toNat_lt
  have haddress := toNat_rowAddress center before before.toNat
  rw [← UInt16.toNat_inj]
  omega

/-- However many rows are asked for, the center is among those that are counted. -/
theorem toNat_lt_rowCount (before after : UInt16) : before.toNat < rowCount before after := by
  have hbefore := before.toNat_lt
  rw [rowCount]
  omega

theorem ofWord_center_mem_listing (h : m.HoldsWord center word) :
    Row.ofWord center word ∈ m.listing center before after := by
  refine List.mem_filterMap.mpr ⟨before.toNat, List.mem_range.mpr (toNat_lt_rowCount _ _), ?_⟩
  rw [rowAddress_center]
  exact rowAt?_eq_some_iff.mpr ⟨word, h, rfl⟩

/-! ### What a debugger is told -/

theorem decodeAt_of_holdsWord (h : m.HoldsWord a word) : m.decodeAt a =
    (Instruction.decode word).map fun _ ↦ ((Row.ofWord a word).text, instructionBytes) := by
  rw [decodeAt, fetch_eq_ok_iff.mpr h, ← Row.length_ofWord a word]
  change (do
      let _ ← Instruction.decode word
      pure ((Row.ofWord a word).text, (Row.ofWord a word).length)) = _
  cases Instruction.decode word <;> rfl

/-- A debugger is told the same as a row of a legal word says, and is refused a word that the row
calls illegal. -/
theorem decodeAt_address (h : m.IsRow center before i row) :
    m.decodeAt row.address =
      if row.illegal then .error (.illegalOpcode row.word) else .ok (row.text, 2) := by
  rw [decodeAt_of_holdsWord h.word, ← h.eq_ofWord]
  have hillegal := congrArg Row.illegal h.eq_ofWord
  rw [Row.ofWord] at hillegal
  cases hdecode : Instruction.decode row.word with
  | ok inst =>
    rw [hdecode] at hillegal
    rw [hillegal, if_neg Bool.false_ne_true]
    rfl
  | error f =>
    rw [hdecode] at hillegal
    rw [hillegal, if_pos rfl, Instruction.eq_illegalOpcode_of_decode hdecode]
    rfl

/-! ### Listings -/

/-- What a listing around an address shows. -/
structure ListsAround (m : Machine) (center before after : UInt16) (rows : List Row) : Prop where
  /-- In order, the rows are those that can be shown among the ones that are counted. -/
  exact : ∃ indices : List ℕ, indices.Pairwise (· < ·) ∧
    (∀ i, i ∈ indices ↔
      i ≤ min (before.toNat + after.toNat) 65535 ∧ ∃ row, m.IsRow center before i row) ∧
    List.Forall₂ (m.IsRow center before) indices rows
  /-- The word at the center is shown if it can be fetched. -/
  center : ∀ word, m.HoldsWord center word → Row.ofWord center word ∈ rows
  /-- A debugger is told what the row of a legal word says. -/
  legal : ∀ row ∈ rows, row.illegal = false → m.decodeAt row.address = .ok (row.text, 2)
  /-- A debugger is refused a word that is shown as illegal. -/
  illegal : ∀ row ∈ rows, row.illegal = true →
    m.decodeAt row.address = .error (.illegalOpcode row.word)

theorem exists_isRow_of_mem_listing (h : row ∈ m.listing center before after) :
    ∃ i, m.IsRow center before i row := by
  obtain ⟨i, -, hrow⟩ := List.mem_filterMap.mp h
  exact ⟨i, isRow_iff.mpr hrow⟩

/-- **A listing shows what is there**: the rows that were asked for and can be fetched, in order and
each in its place, and each as a debugger would be told of it. -/
theorem listsAround_listing (m : Machine) (center before after : UInt16) :
    m.ListsAround center before after (m.listing center before after) where
  exact := by
    let shown := fun i ↦ m.rowAt? (rowAddress center before i)
    refine ⟨(List.range (rowCount before after)).filter fun i ↦ (shown i).isSome, ?_, ?_, ?_⟩
    · exact List.pairwise_lt_range.filter _
    · intro i
      have hcount : i < rowCount before after ↔
          i ≤ min (before.toNat + after.toNat) 65535 := by
        rw [rowCount]
        omega
      simp only [List.mem_filter, List.mem_range, hcount, Option.isSome_iff_exists, isRow_iff,
        shown]
    · exact (forall₂_filter_filterMap shown _).imp fun _ _ ↦ isRow_iff.mpr
  center word h := ofWord_center_mem_listing h
  legal row hrow hlegal := by
    obtain ⟨i, hi⟩ := exists_isRow_of_mem_listing hrow
    rw [decodeAt_address hi, hlegal, if_neg Bool.false_ne_true]
  illegal row hrow hillegal := by
    obtain ⟨i, hi⟩ := exists_isRow_of_mem_listing hrow
    rw [decodeAt_address hi, hillegal, if_pos rfl]

/-- A machine that holds a word at the first address and one at the last two. -/
private def comingRound : Machine where
  memory := ⟨"memory",
    [.store { range := .between 0 2 }, .store { range := .between 0xFFFE 0x10000 }]⟩
  ports := ⟨"io", []⟩

/-- Of the four rows that are counted, the first and the last cannot be shown. -/
example : (comingRound.listing 0 2 1).map Row.address = [0xFFFE, 0] := by decide

end Machine

end CalcWatch
