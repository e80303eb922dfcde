import CalcWatch.Json.Layout
import CalcWatch.Proofs.Json.Composed

/-!
# Structures read by name

The text of a structure may leave fields out, name them in any order and have other members beside
them. It is told what a reader makes of it, first for any structure and then for layouts.

## What an object says

An object says of a name what its one member of that name says, wherever this member stands and
whatever stands around it, and the reader of a structure refuses an object in which the name of a
field occurs twice. Hence the order of the members does not matter, nor do members with other names,
and a list of the first fields is read like the object of these fields.

## Layouts that leave something out

The text of a machine layout may give any of the four fields, in any order and among whatever else,
and what it does not give is as in the stock machine. Of a device the byte order alone may be left
out. A field that is given twice is given wrongly, even if it is given the same value.
-/

namespace CalcWatch

/-! ## What an object says -/

section

open JsonForm (decode?)

namespace Json

variable {members others : List (String × Json)} {name : String} {names : List String}
  {said : Option Json} {items : List Json}

/-! ### One name -/

/-- What an object says of a name that it does not repeat. -/
inductive Mentions (members : List (String × Json)) (name : String) : Option Json → Prop
  /-- No member has the name. -/
  | absent (hothers : ∀ member ∈ members, member.1 ≠ name) : Mentions members name none
  /-- One member has the name. -/
  | once (before after : List (String × Json)) (j : Json)
      (hmembers : members = before ++ (name, j) :: after)
      (hothers : ∀ member ∈ before ++ after, member.1 ≠ name) : Mentions members name (some j)

def Repeats (members : List (String × Json)) (name : String) : Prop :=
  ∃ before first between second after,
    members = before ++ (name, first) :: (between ++ (name, second) :: after)

theorem filter_fst_eq_nil :
    members.filter (·.1 == name) = [] ↔ ∀ member ∈ members, member.1 ≠ name := by
  rw [List.filter_eq_nil_iff]
  exact forall₂_congr fun member _ ↦ not_congr beq_iff_eq

theorem filter_fst_cons_self (j : Json) :
    ((name, j) :: members).filter (·.1 == name) = (name, j) :: members.filter (·.1 == name) :=
  List.filter_cons_of_pos (beq_self_eq_true name)

theorem mentions_none : Mentions members name none ↔ members.filter (·.1 == name) = [] := by
  rw [filter_fst_eq_nil]
  exact ⟨fun | .absent hothers => hothers, .absent⟩

theorem mentions_some {j : Json} :
    Mentions members name (some j) ↔ members.filter (·.1 == name) = [(name, j)] := by
  constructor
  · rintro (_ | ⟨before, after, _, hmembers, hothers⟩)
    obtain ⟨hbefore, hafter⟩ := List.forall_mem_append.mp hothers
    rw [hmembers, List.filter_append, filter_fst_eq_nil.mpr hbefore, List.nil_append,
      filter_fst_cons_self, filter_fst_eq_nil.mpr hafter]
  · intro h
    obtain ⟨before, after, hmembers, hbefore, -, hafter⟩ := List.filter_eq_cons_iff.mp h
    refine .once before after j hmembers (List.forall_mem_append.mpr ⟨?_, ?_⟩)
    · exact fun member hmember hname ↦ hbefore member hmember (beq_iff_eq.mpr hname)
    · exact filter_fst_eq_nil.mp hafter

theorem repeats_iff : Repeats members name ↔ 2 ≤ (members.filter (·.1 == name)).length := by
  constructor
  · rintro ⟨before, first, between, second, after, rfl⟩
    rw [List.filter_append, filter_fst_cons_self, List.filter_append, filter_fst_cons_self]
    simp only [List.length_append, List.length_cons]
    omega
  · intro h
    rcases hfilter : members.filter (·.1 == name) with _ | ⟨⟨_, first⟩, _ | ⟨⟨_, second⟩, rest⟩⟩
    case cons.cons =>
      obtain ⟨before, later, hmembers, -, hfirst, hlater⟩ := List.filter_eq_cons_iff.mp hfilter
      obtain ⟨between, after, hbetween, -, hsecond, -⟩ := List.filter_eq_cons_iff.mp hlater
      cases beq_iff_eq.mp hfirst
      cases beq_iff_eq.mp hsecond
      exact ⟨before, first, between, second, after, hbetween ▸ hmembers⟩
    all_goals simp [hfilter] at h

theorem Mentions.cons (h : Mentions members name said) {member : String × Json}
    (hname : member.1 ≠ name) : Mentions (member :: members) name said := by
  cases h with
  | absent hothers => exact .absent (List.forall_mem_cons.mpr ⟨hname, hothers⟩)
  | once before after j hmembers hothers =>
    refine .once (member :: before) after j (congrArg (member :: ·) hmembers) ?_
    exact List.forall_mem_cons.mpr ⟨hname, hothers⟩

/-- Only the members with a name say something of it, in any order. -/
theorem Mentions.perm (h : Mentions members name said)
    (hperm : (members.filter (·.1 == name)).Perm (others.filter (·.1 == name))) :
    Mentions others name said := by
  cases said with
  | none =>
    rw [mentions_none] at h ⊢
    exact List.nil_perm.mp (h ▸ hperm)
  | some j =>
    rw [mentions_some] at h ⊢
    exact (List.singleton_perm.mp (h ▸ hperm)).symm

/-! ### What the readers find -/

theorem member?_eq_some_iff :
    member? name (members.map fun member ↦ (some member.1, member.2)) = some said ↔
      Mentions members name said := by
  rw [member?, filter_named]
  cases said with
  | none =>
    rw [mentions_none]
    rcases hfound : members.filter (·.1 == name) with _ | ⟨_, _ | _⟩ <;> simp [hfound]
  | some j =>
    rw [mentions_some]
    have hname : ∀ member ∈ members.filter (·.1 == name), member.1 = name :=
      fun member hmember ↦ beq_iff_eq.mp (List.mem_filter.mp hmember).2
    rcases hfound : members.filter (·.1 == name) with _ | ⟨⟨key, value⟩, _ | _⟩
    · simp [hfound]
    · rw [hfound, List.forall_mem_singleton] at hname
      cases hname
      simp [hfound]
    · simp [hfound]

theorem member?_eq_none_iff :
    member? name (members.map fun member ↦ (some member.1, member.2)) = none ↔
      Repeats members name := by
  rw [member?, filter_named, repeats_iff]
  rcases hfound : members.filter (·.1 == name) with _ | ⟨_, _ | _⟩ <;> simp [hfound]

theorem fields?_record_eq_some_iff {fields : List (Option Json)} :
    fields? names (record members) = some fields ↔
      List.Forall₂ (Mentions members) names fields := by
  rw [fields?_record, mapM_eq_some_iff]
  simp only [member?_eq_some_iff]

theorem fields?_record_eq_none (hname : name ∈ names) (h : Repeats members name) :
    fields? names (record members) = none := by
  refine Option.eq_none_iff_forall_ne_some.mpr fun fields hfields ↦ ?_
  rw [fields?_record, mapM_eq_some_iff, List.forall₂_iff_get] at hfields
  obtain ⟨i, hi, rfl⟩ := List.mem_iff_getElem.mp hname
  have hmember := hfields.2 i hi (hfields.1 ▸ hi)
  rw [List.get_eq_getElem, member?_eq_none_iff.mpr h] at hmember
  cases hmember

/-- A list of fields says of each name what an object says that names them in their order. -/
theorem forall₂_mentions_zip (hnodup : names.Nodup) (hlength : items.length ≤ names.length) :
    List.Forall₂ (Mentions (names.zip items)) names
      ((List.range names.length).map (items[·]?)) := by
  induction names generalizing items with
  | nil => exact .nil
  | cons name names ih =>
    obtain ⟨hname, hnodup⟩ := List.nodup_cons.mp hnodup
    rw [List.length_cons, List.range_succ_eq_map, List.map_cons, List.map_map]
    cases items with
    | nil =>
      have hnothing := @ih [] hnodup (Nat.zero_le _)
      rw [List.zip_nil_right] at hnothing ⊢
      exact .cons (.absent nofun) hnothing
    | cons j items =>
      have hlater := ih hnodup (Nat.le_of_succ_le_succ hlength)
      refine .cons (.once [] (names.zip items) j rfl ?_) ?_
      · rintro ⟨other, _⟩ hmember rfl
        exact hname (List.of_mem_zip hmember).1
      · have hapart : ∀ other ∈ names, name ≠ other := fun other hother h ↦ hname (h ▸ hother)
        refine ((List.forall₂_and_left _ _).mpr ⟨hapart, hlater⟩).imp ?_
        exact fun other said ⟨hother, hsaid⟩ ↦ hsaid.cons hother

theorem fields?_array (hnodup : names.Nodup) (hlength : items.length ≤ names.length) :
    fields? names (.array items) = fields? names (record (names.zip items)) := by
  rw [fields?_record_eq_some_iff.mpr (forall₂_mentions_zip hnodup hlength), fields?,
    if_pos hlength]

/-! ### Structures -/

theorem forall₂_mentions_perm {fields : List (Option Json)}
    (h : List.Forall₂ (Mentions members) names fields)
    (hperm : (members.filter (·.1 ∈ names)).Perm (others.filter (·.1 ∈ names))) :
    List.Forall₂ (Mentions others) names fields := by
  have hnamed : ∀ name ∈ names,
      (members.filter (·.1 == name)).Perm (others.filter (·.1 == name)) := by
    intro name hname
    have hknown : ∀ member : String × Json,
        (member.1 == name && decide (member.1 ∈ names)) = (member.1 == name) := by
      intro member
      by_cases hmember : member.1 = name
      · simp [hmember, hname]
      · simp [hmember]
    have hfilter := hperm.filter (·.1 == name)
    simpa only [List.filter_filter, hknown] using hfilter
  refine ((List.forall₂_and_left _ _).mpr ⟨hnamed, h⟩).imp ?_
  exact fun name said ⟨hname, hsaid⟩ ↦ hsaid.perm hname

theorem fields?_congr
    (h : (members.filter (·.1 ∈ names)).Perm (others.filter (·.1 ∈ names))) :
    fields? names (record members) = fields? names (record others) := by
  refine Option.ext fun fields ↦ ?_
  rw [fields?_record_eq_some_iff, fields?_record_eq_some_iff]
  exact ⟨fun hfields ↦ forall₂_mentions_perm hfields h,
    fun hfields ↦ forall₂_mentions_perm hfields h.symm⟩

/-- How the form of a structure is read, by the names of the fields in their order. -/
structure ReadByName (α : Type) [JsonForm α] (names : List String) : Prop where
  /-- The order of the members does not matter, nor do members with other names. -/
  reordered : ∀ members others : List (String × Json),
    (members.filter (·.1 ∈ names)).Perm (others.filter (·.1 ∈ names)) →
      (decode? (record members) : Option α) = decode? (record others)
  /-- No field may be repeated. -/
  repeated : ∀ members : List (String × Json), ∀ name ∈ names, Repeats members name →
    (decode? (record members) : Option α) = none
  /-- A list of the first fields is read like the object of these fields. -/
  listed : ∀ items : List Json, items.length ≤ names.length →
    (decode? (.array items) : Option α) = decode? (record (names.zip items))

theorem readByName {α : Type} [JsonForm α] {next : List (Option Json) → Option α}
    (hnodup : names.Nodup) (h : ∀ j, decode? j = fields? names j >>= next) :
    ReadByName α names where
  reordered members others hperm := by rw [h, h, fields?_congr hperm]
  repeated members name hname hrepeats := by
    rw [h, fields?_record_eq_none hname hrepeats]
    rfl
  listed items hlength := by rw [h, h, fields?_array hnodup hlength]

/-! ### Fields -/

section Fields

variable {α : Type} [JsonForm α]

/-- What an object says of a field: nothing, or that it has a value. -/
inductive Gives (members : List (String × Json)) (name : String) : Option α → Prop
  /-- No member has the name. -/
  | absent (h : Mentions members name none) : Gives members name none
  /-- One member has the name, with a value that fits. -/
  | value (j : Json) (v : α) (h : Mentions members name (some j)) (hv : decode? j = some v) :
    Gives members name (some v)

theorem gives_required {v : α} :
    Gives members name (some v) ↔ ∃ said, Mentions members name said ∧ required said = some v := by
  constructor
  · rintro (_ | ⟨j, _, h, hv⟩)
    exact ⟨some j, h, hv⟩
  · rintro ⟨_ | j, h, hv⟩
    · cases hv
    · exact .value j v h hv

theorem Gives.mentioned {v : α} (h : Gives members name (some v)) :
    ¬ Mentions members name none := by
  rcases h with _ | ⟨j, _, h, -⟩
  rw [mentions_none, mentions_some.mp h]
  exact List.cons_ne_nil _ _

theorem gives_defaulted (absent : α) {v : α} :
    (∃ given : Option α, Gives members name given ∧ given.getD absent = v) ↔
      ∃ said, Mentions members name said ∧ defaulted absent said = some v := by
  constructor
  · rintro ⟨_, h | ⟨j, _, h, hv⟩, rfl⟩
    · exact ⟨none, h, rfl⟩
    · exact ⟨some j, h, hv⟩
  · rintro ⟨_ | j, h, hv⟩
    · cases hv
      exact ⟨none, .absent h, rfl⟩
    · exact ⟨some v, .value j v h hv, rfl⟩

end Fields

end Json

end

/-! ## Layouts that leave something out -/

section

open Json (Mentions Repeats Gives ReadByName WrittenValue WrittenMember arrayText objectText parse?
  record required gives_required gives_defaulted fields?_record_eq_some_iff)
open JsonForm (decode? read?)

variable {members : List (String × Json)}

/-! ### Machines -/

def MachineLayout.fieldNames : List String := ["reset_pc", "reset_sp", "memory", "io"]

theorem MachineLayout.readByName : ReadByName MachineLayout fieldNames :=
  Json.readByName (by decide) fun _ ↦ rfl

/-- What a text gives of a machine layout. -/
structure PartialLayout where
  /-- The program counter after a reset. -/
  resetPc : Option UInt16
  /-- The stack pointer after a reset. -/
  resetSp : Option UInt16
  /-- The memory. -/
  memory : Option BusLayout
  /-- The ports. -/
  ports : Option BusLayout

namespace PartialLayout

/-- The stock layout, with what is given in place of its own. -/
def complete (given : PartialLayout) : MachineLayout :=
  let stock : MachineLayout := {}
  { resetPc := given.resetPc.getD stock.resetPc
    resetSp := given.resetSp.getD stock.resetSp
    memory := given.memory.getD stock.memory
    ports := given.ports.getD stock.ports }

/-- The members of an object give this and no more. -/
structure GivenBy (given : PartialLayout) (members : List (String × Json)) : Prop where
  /-- What they give as program counter. -/
  resetPc : Gives members "reset_pc" given.resetPc
  /-- What they give as stack pointer. -/
  resetSp : Gives members "reset_sp" given.resetSp
  /-- What they give as memory. -/
  memory : Gives members "memory" given.memory
  /-- What they give as ports. -/
  ports : Gives members "io" given.ports

end PartialLayout

theorem MachineLayout.decode?_record {layout : MachineLayout} :
    decode? (record members) = some layout ↔
      ∃ given : PartialLayout, given.GivenBy members ∧ given.complete = layout := by
  refine Option.bind_eq_some_iff.trans ?_
  simp only [fields?_record_eq_some_iff]
  constructor
  · rintro ⟨fields, hfields, hlayout⟩
    rcases hfields with _ | ⟨hpc, _ | ⟨hsp, _ | ⟨hmemory, _ | ⟨hports, _ | _⟩⟩⟩⟩
    simp only [Option.bind_eq_bind, Option.bind_eq_some_iff, Option.pure_def] at hlayout
    obtain ⟨pc, hpc', sp, hsp', memory, hmemory', ports, hports', heq⟩ := hlayout
    cases heq
    obtain ⟨givenPc, hgivenPc, rfl⟩ := (gives_defaulted _).mpr ⟨_, hpc, hpc'⟩
    obtain ⟨givenSp, hgivenSp, rfl⟩ := (gives_defaulted _).mpr ⟨_, hsp, hsp'⟩
    obtain ⟨givenMemory, hgivenMemory, rfl⟩ := (gives_defaulted _).mpr ⟨_, hmemory, hmemory'⟩
    obtain ⟨givenPorts, hgivenPorts, rfl⟩ := (gives_defaulted _).mpr ⟨_, hports, hports'⟩
    exact ⟨⟨givenPc, givenSp, givenMemory, givenPorts⟩,
      ⟨hgivenPc, hgivenSp, hgivenMemory, hgivenPorts⟩, rfl⟩
  · rintro ⟨given, hgiven, rfl⟩
    obtain ⟨pc, hpc, hpc'⟩ := (gives_defaulted stockResetPc).mp ⟨_, hgiven.resetPc, rfl⟩
    obtain ⟨sp, hsp, hsp'⟩ := (gives_defaulted stockResetSp).mp ⟨_, hgiven.resetSp, rfl⟩
    obtain ⟨memory, hmemory, hmemory'⟩ :=
      (gives_defaulted .stockMemory).mp ⟨_, hgiven.memory, rfl⟩
    obtain ⟨ports, hports, hports'⟩ := (gives_defaulted .stockPorts).mp ⟨_, hgiven.ports, rfl⟩
    refine ⟨[pc, sp, memory, ports], .cons hpc (.cons hsp (.cons hmemory (.cons hports .nil))), ?_⟩
    simp only [hpc', hsp', hmemory', hports', Option.bind_eq_bind, Option.bind_some]
    rfl

/-! ### Buses and devices -/

def BusLayout.fieldNames : List String := ["devices"]

theorem BusLayout.readByName : ReadByName BusLayout fieldNames :=
  Json.readByName (by decide) fun _ ↦ rfl

theorem BusLayout.decode?_record {layout : BusLayout} :
    decode? (record members) = some layout ↔
      ∃ items, Mentions members "devices" (some (.array items)) ∧
        List.Forall₂ (fun item device ↦ decode? item = some device) items layout.devices := by
  refine Option.bind_eq_some_iff.trans ?_
  simp only [fields?_record_eq_some_iff]
  constructor
  · rintro ⟨fields, hfields, hlayout⟩
    rcases hfields with _ | ⟨hdevices, _ | _⟩
    obtain ⟨devices, hdevices', heq⟩ := Option.bind_eq_some_iff.mp hlayout
    cases heq
    rcases gives_required.mpr ⟨_, hdevices, hdevices'⟩ with _ | ⟨j, _, h, hj⟩
    obtain ⟨items, rfl, hitems⟩ := Json.decode?_list_eq_some_iff.mp hj
    exact ⟨items, h, hitems⟩
  · rintro ⟨items, h, hitems⟩
    have hdevices : required (some (.array items)) = some layout.devices :=
      Json.decode?_list_eq_some_iff.mpr ⟨items, rfl, hitems⟩
    refine ⟨[some (.array items)], .cons h .nil, ?_⟩
    simp only [hdevices, Option.bind_eq_bind, Option.bind_some]
    rfl

def DeviceLayout.fieldNames : List String := ["kind", "low", "high", "endianness"]

theorem DeviceLayout.readByName : ReadByName DeviceLayout fieldNames :=
  Json.readByName (by decide) fun _ ↦ rfl

/-- The members of an object give this device. -/
structure DeviceLayout.GivenBy (layout : DeviceLayout) (members : List (String × Json)) :
    Prop where
  /-- They give its kind. -/
  kind : Gives members "kind" (some layout.kind)
  /-- They give one bound. -/
  low : Gives members "low" (some layout.low)
  /-- They give the other bound. -/
  high : Gives members "high" (some layout.high)
  /-- They give its byte order, unless it is little-endian. -/
  order : ∃ given : Option ByteOrder,
    Gives members "endianness" given ∧ given.getD .little = layout.order

theorem DeviceLayout.decode?_record {layout : DeviceLayout} :
    decode? (record members) = some layout ↔ layout.GivenBy members := by
  refine Option.bind_eq_some_iff.trans ?_
  simp only [fields?_record_eq_some_iff]
  constructor
  · rintro ⟨fields, hfields, hlayout⟩
    rcases hfields with _ | ⟨hkind, _ | ⟨hlow, _ | ⟨hhigh, _ | ⟨horder, _ | _⟩⟩⟩⟩
    simp only [Option.bind_eq_bind, Option.bind_eq_some_iff, Option.pure_def] at hlayout
    obtain ⟨kind, hkind', low, hlow', high, hhigh', order, horder', heq⟩ := hlayout
    cases heq
    exact
      { kind := gives_required.mpr ⟨_, hkind, hkind'⟩
        low := gives_required.mpr ⟨_, hlow, hlow'⟩
        high := gives_required.mpr ⟨_, hhigh, hhigh'⟩
        order := (gives_defaulted _).mpr ⟨_, horder, horder'⟩ }
  · intro hgiven
    obtain ⟨kind, hkind, hkind'⟩ := gives_required.mp hgiven.kind
    obtain ⟨low, hlow, hlow'⟩ := gives_required.mp hgiven.low
    obtain ⟨high, hhigh, hhigh'⟩ := gives_required.mp hgiven.high
    obtain ⟨order, horder, horder'⟩ := (gives_defaulted ByteOrder.little).mp hgiven.order
    refine ⟨[kind, low, high, order],
      .cons hkind (.cons hlow (.cons hhigh (.cons horder .nil))), ?_⟩
    simp only [hkind', hlow', hhigh', horder', Option.bind_eq_bind, Option.bind_some]
    rfl

/-- The kind and the bounds of a device cannot be left out. -/
theorem DeviceLayout.decode?_record_eq_none {name : String} (hname : name ∈ ["kind", "low", "high"])
    (h : Mentions members name none) : (decode? (record members) : Option DeviceLayout) = none := by
  refine Option.eq_none_iff_forall_ne_some.mpr fun layout hlayout ↦ ?_
  have hgiven : layout.GivenBy members := decode?_record.mp hlayout
  rcases List.mem_cons.mp hname with rfl | hname
  · exact hgiven.kind.mentioned h
  rcases List.mem_cons.mp hname with rfl | hname
  · exact hgiven.low.mentioned h
  obtain rfl := List.mem_singleton.mp hname
  exact hgiven.high.mentioned h

/-! ### Texts -/

/-- **Layouts may be given in part.** Whatever texts of members are put together make the text of an
object. If it denotes an object with named members, it is read as the stock layout with exactly the
given fields replaced, and a field that is repeated makes it be refused; the list of the first
fields is read like any text of the object of these fields. The same holds of each device of a bus,
except that only its byte order may be missing. -/
theorem MachineLayout.read?_partial :
    (∀ ms : List WrittenMember,
      parse? (objectText ms) = some (record (ms.map WrittenMember.member))) ∧
    (∀ items : List WrittenValue,
      parse? (arrayText items) = some (.array (items.map WrittenValue.value))) ∧
    (∀ text members, parse? text = some (record members) →
      (∀ layout : MachineLayout, read? text = some layout ↔
        ∃ given : PartialLayout, given.GivenBy members ∧ given.complete = layout) ∧
      ∀ name ∈ fieldNames, Repeats members name → (read? text : Option MachineLayout) = none) ∧
    (∀ text items, parse? text = some (.array items) → items.length ≤ fieldNames.length →
      ∀ other, parse? other = some (record (fieldNames.zip items)) →
        (read? text : Option MachineLayout) = read? other) ∧
    (ReadByName BusLayout BusLayout.fieldNames ∧ ∀ members (layout : BusLayout),
      decode? (record members) = some layout ↔
        ∃ items, Mentions members "devices" (some (.array items)) ∧
          List.Forall₂ (fun item device ↦ decode? item = some device) items layout.devices) ∧
    (ReadByName DeviceLayout DeviceLayout.fieldNames ∧ ∀ members,
      (∀ layout : DeviceLayout, decode? (record members) = some layout ↔
        layout.GivenBy members) ∧
      ∀ name ∈ ["kind", "low", "high"], Mentions members name none →
        (decode? (record members) : Option DeviceLayout) = none) := by
  refine ⟨Json.parse?_objectText, Json.parse?_arrayText, fun text members htext ↦ ⟨?_, ?_⟩,
    fun text items htext hlength other hother ↦ ?_, ⟨BusLayout.readByName, ?_⟩,
    ⟨DeviceLayout.readByName, fun members ↦ ⟨?_, ?_⟩⟩⟩
  · intro layout
    rw [JsonForm.read?_of_parse? htext]
    exact decode?_record
  · intro name hname hrepeats
    rw [JsonForm.read?_of_parse? htext]
    exact readByName.repeated members name hname hrepeats
  · rw [JsonForm.read?_of_parse? htext, JsonForm.read?_of_parse? hother]
    exact readByName.listed items hlength
  · exact fun members layout ↦ BusLayout.decode?_record
  · exact fun layout ↦ DeviceLayout.decode?_record
  · exact fun name hname ↦ DeviceLayout.decode?_record_eq_none hname

/-- A text that gives two fields, not in their order and with another member between them. -/
example :
    read? "\x7b \"io\": \x7b \"devices\": [] \x7d, \"color\": [null, 1.5], \"reset_pc\": 4 \x7d" =
      some ({ resetPc := 4, ports := ⟨[]⟩ } : MachineLayout) := rfl

end

end CalcWatch
