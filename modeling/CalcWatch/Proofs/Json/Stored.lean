import CalcWatch.Json.Layout
import CalcWatch.Json.Registers
import CalcWatch.Json.Report
import CalcWatch.Proofs.Json.Values

/-!
# Whatever is stored

All types that can be stored are read back from what is written for them, and the registers among
them are read from nothing else.

## Whatever is stored can be read back

All the types that can be stored have lawful forms, so the text that is written for a value is read
as this value. A reader may accept other texts as well, but writing what it made of them and reading
again changes nothing any more.

## Forms that are read in one way

Numbers, and lists and vectors of them, are read from nothing but what is written for them.
Selectors are such numbers, so a stored bank is the number in the text and not its low bits, and the
cells of stored registers are the numbers in the text as well. Structures may be written with their
members in another order, but each field is read in one way.
-/

namespace CalcWatch

/-! ## Whatever is stored can be read back -/

section

open Json (decode_record plain_record plain_text)
open JsonForm (encode decode? read? write RoundTrips roundTrips)

/-! ### Choices -/

instance : LawfulJsonForm ByteOrder where
  decode_encode order := by cases order <;> rfl
  plain_encode order := plain_text order.stored

instance : LawfulJsonForm DeviceKind where
  decode_encode kind := by cases kind <;> rfl
  plain_encode kind := plain_text kind.stored

instance : LawfulJsonForm FaultClass where
  decode_encode layer := by cases layer <;> rfl
  plain_encode layer := plain_text layer.stored

instance : LawfulJsonForm InterruptSource where
  decode_encode source := by cases source <;> rfl
  plain_encode source := plain_text source.stored

/-! ### Layouts -/

theorem AddressRange.between_low_high (range : AddressRange) :
    AddressRange.between range.low range.high = range := by
  rw [between, dif_pos range.low_le_high]

instance : LawfulJsonForm AddressRange where
  decode_encode range := by
    refine decode_record (by simp) ?_
    simp [range.between_low_high]
  plain_encode range := plain_record (by simp [plain_encode])

instance : LawfulJsonForm DeviceLayout where
  decode_encode layout := decode_record (by simp) (by simp)
  plain_encode layout := plain_record (by simp [plain_encode])

instance : LawfulJsonForm BusLayout where
  decode_encode layout := decode_record (by simp) (by simp)
  plain_encode layout := plain_record (by simp [plain_encode])

instance : LawfulJsonForm MachineLayout where
  decode_encode layout := decode_record (by simp) (by simp)
  plain_encode layout := plain_record (by simp [plain_encode])

/-! ### Registers -/

instance : LawfulJsonForm Bank where
  decode_encode bank := congrArg (Option.map Bank.mk) (decode_encode bank.number)
  plain_encode bank := plain_encode bank.number

instance : LawfulJsonForm Reg where
  decode_encode r := congrArg (Option.map Reg.mk) (decode_encode r.number)
  plain_encode r := plain_encode r.number

instance : LawfulJsonForm RegisterFile where
  decode_encode file := decode_record (by simp) (by simp)
  plain_encode file := plain_record (by simp [plain_encode])

instance : LawfulJsonForm Control where
  decode_encode control := decode_record (by simp) (by simp)
  plain_encode control := plain_record (by simp [plain_encode])

/-! ### Reports -/

instance : LawfulJsonForm InterruptController where
  decode_encode controller := decode_record (by simp) (by simp)
  plain_encode controller := plain_record (by simp [plain_encode])

instance : LawfulJsonForm Row where
  decode_encode row := decode_record (by simp) (by simp)
  plain_encode row := plain_record (by simp [plain_encode])

/-! ### Faults -/

theorem storedAddress?_record (a : UInt32) :
    storedAddress? (.record [("addr", encode a)]) = some a :=
  decode_record (by simp) (by simp)

instance : LawfulJsonForm Fault where
  decode_encode fault := by
    change Fault.ofStored? fault.stored fault.storedDetail = some fault
    cases fault with
    | unmappedAddress a =>
      exact congrArg (Option.map Fault.unmappedAddress) (storedAddress?_record a)
    | readDenied a => exact congrArg (Option.map Fault.readDenied) (storedAddress?_record a)
    | writeDenied a => exact congrArg (Option.map Fault.writeDenied) (storedAddress?_record a)
    | illegalOpcode word => exact congrArg (Option.map Fault.illegalOpcode) (decode_encode word)
    | illegalRegisterName name =>
      exact congrArg (Option.map Fault.illegalRegisterName) (decode_encode name)
    | outOfRangeValue a v =>
      refine decode_record (by simp) ?_
      simp
    | illegalRegisterValue name v =>
      refine decode_record (by simp) ?_
      simp
  plain_encode fault := by
    have hdetail : fault.storedDetail.Plain := by
      cases fault with
      | illegalOpcode word => exact plain_encode word
      | illegalRegisterName name => exact plain_encode name
      | _ => exact plain_record (by simp [plain_encode])
    exact plain_record (by simp [hdetail])

/-! ### All of them -/

/-- **Whatever is stored can be read back.** -/
theorem stored_roundTrips :
    RoundTrips MachineLayout ∧ RoundTrips BusLayout ∧ RoundTrips DeviceLayout ∧
      RoundTrips DeviceKind ∧ RoundTrips ByteOrder ∧ RoundTrips AddressRange ∧
      RoundTrips Fault ∧ RoundTrips FaultClass ∧
      RoundTrips InterruptSource ∧ RoundTrips InterruptController ∧
      RoundTrips Bank ∧ RoundTrips Reg ∧ RoundTrips RegisterFile ∧ RoundTrips Control ∧
      RoundTrips Row :=
  ⟨roundTrips, roundTrips, roundTrips, roundTrips, roundTrips, roundTrips, roundTrips, roundTrips,
    roundTrips, roundTrips, roundTrips, roundTrips, roundTrips, roundTrips, roundTrips⟩

/-- A range whose bounds are given the wrong way round, and in the wrong order. -/
theorem stored_roundTrips_reversed :
    read? "\x7b \"high\": 1, \"low\": 2 \x7d" = some (AddressRange.between 1 2) ∧
      read? (write (AddressRange.between 1 2)) = some (AddressRange.between 1 2) := by
  have hread : read? "\x7b \"high\": 1, \"low\": 2 \x7d" = some (AddressRange.between 1 2) := rfl
  have hranges : RoundTrips AddressRange := stored_roundTrips.2.2.2.2.2.1
  exact ⟨hread, hranges.reread _ _ hread⟩

end

/-! ## Forms that are read in one way -/

section

open Json (natural fields? required integerIn?)
open JsonForm (encode decode? read?)

variable {α : Type} [JsonForm α]

/-! ### Numbers, lists and vectors -/

/-- A type whose values are read from nothing but what is written for them. -/
class ExactJsonForm (α : Type) [JsonForm α] : Prop where
  /-- What was read is what is written. -/
  eq_encode_of_decode? : ∀ {j : Json} {v : α}, decode? j = some v → j = encode v

export ExactJsonForm (eq_encode_of_decode?)

theorem decode?_eq_some_iff [LawfulJsonForm α] [ExactJsonForm α] {j : Json} {v : α} :
    decode? j = some v ↔ j = encode v :=
  ⟨eq_encode_of_decode?, fun h ↦ h ▸ decode_encode v⟩

theorem required_eq_some_iff [LawfulJsonForm α] [ExactJsonForm α] {said : Option Json} {v : α} :
    required said = some v ↔ said = some (encode v) := by
  rw [required, Option.bind_eq_some_iff]
  simp only [decode?_eq_some_iff, exists_eq_right]

theorem read?_eq_some_iff [LawfulJsonForm α] [ExactJsonForm α] {text : String} {v : α} :
    read? text = some v ↔ Json.parse? text = some (encode v) := by
  rw [read?, Option.bind_eq_some_iff]
  simp only [decode?_eq_some_iff, exists_eq_right]

theorem Json.eq_natural_of_integerIn? {high n : ℤ} {j : Json} (h : integerIn? 0 high j = some n) :
    j = natural n.toNat ∧ n ≤ high := by
  cases j with
  | integer value =>
    rw [integerIn?] at h
    split_ifs at h with hbounds
    cases h
    exact ⟨by rw [natural, Int.toNat_of_nonneg hbounds.1], hbounds.2⟩
  | _ => cases h

instance : ExactJsonForm UInt8 where
  eq_encode_of_decode? h := by
    obtain ⟨n, hn, rfl⟩ := Option.map_eq_some_iff.mp h
    obtain ⟨rfl, hhigh⟩ := Json.eq_natural_of_integerIn? hn
    have hlt : n.toNat < 2 ^ 8 := by omega
    change _ = natural (UInt8.ofNat n.toNat).toNat
    rw [UInt8.toNat_ofNat_of_lt' hlt]

instance : ExactJsonForm UInt16 where
  eq_encode_of_decode? h := by
    obtain ⟨n, hn, rfl⟩ := Option.map_eq_some_iff.mp h
    obtain ⟨rfl, hhigh⟩ := Json.eq_natural_of_integerIn? hn
    have hlt : n.toNat < 2 ^ 16 := by omega
    change _ = natural (UInt16.ofNat n.toNat).toNat
    rw [UInt16.toNat_ofNat_of_lt' hlt]

instance [ExactJsonForm α] : ExactJsonForm (List α) where
  eq_encode_of_decode? h := by
    obtain ⟨items, rfl, hitems⟩ := Json.decode?_list_eq_some_iff.mp h
    have heach := hitems.imp fun _ _ ↦ eq_encode_of_decode?
    rw [← List.forall₂_map_right_iff, List.forall₂_eq_eq_eq] at heach
    exact congrArg Json.array heach

instance {n : ℕ} [ExactJsonForm α] : ExactJsonForm (Vector α n) where
  eq_encode_of_decode? {j} v h := by
    obtain ⟨items, hitems, hlength⟩ := Option.bind_eq_some_iff.mp h
    split_ifs at hlength
    cases hlength
    have hj : j = encode items := eq_encode_of_decode? hitems
    exact hj

instance : ExactJsonForm Bank where
  eq_encode_of_decode? {j} v h := by
    obtain ⟨number, hnumber, rfl⟩ := Option.map_eq_some_iff.mp h
    have hj : j = encode number := eq_encode_of_decode? hnumber
    exact hj

instance : ExactJsonForm Reg where
  eq_encode_of_decode? {j} v h := by
    obtain ⟨number, hnumber, rfl⟩ := Option.map_eq_some_iff.mp h
    have hj : j = encode number := eq_encode_of_decode? hnumber
    exact hj

/-! ### Structures of registers -/

theorem RegisterFile.decode?_eq_some_iff {j : Json} {file : RegisterFile} :
    decode? j = some file ↔ fields? ["banks"] j = some [some (encode file.banks)] := by
  refine Option.bind_eq_some_iff.trans ⟨?_, fun h ↦ ⟨_, h, ?_⟩⟩
  · rintro ⟨fields, hfields, h⟩
    rcases fields with _ | ⟨banks, _ | _⟩
    case cons.nil =>
      obtain ⟨cells, hcells, heq⟩ := Option.bind_eq_some_iff.mp h
      cases heq
      rw [hfields, required_eq_some_iff.mp hcells]
    all_goals cases h
  · simp

theorem Control.decode?_eq_some_iff {j : Json} {control : Control} :
    decode? j = some control ↔
      fields? ["pc", "sp", "sa", "la", "flags", "current_bank", "additional_bank"] j =
        some [some (encode control.pc), some (encode control.sp), some (encode control.sa),
          some (encode control.la), some (encode control.flags),
          some (encode control.currentBank), some (encode control.additionalBank)] := by
  refine Option.bind_eq_some_iff.trans ⟨?_, fun h ↦ ⟨_, h, ?_⟩⟩
  · rintro ⟨fields, hfields, h⟩
    split at h
    · simp only [Option.bind_eq_bind, Option.bind_eq_some_iff, Option.pure_def,
        required_eq_some_iff] at h
      obtain ⟨_, rfl, _, rfl, _, rfl, _, rfl, _, rfl, _, rfl, _, rfl, heq⟩ := h
      cases heq
      exact hfields
    · cases h
  · simp

end

end CalcWatch
