import CalcWatch.Proofs.Json.Tokens

/-!
# Values and forms can be read back

The second half of the way from text to values, and the laws of the forms that rest on it.

## Values

The reader of values takes the tokens of a value where a value may stand and puts the value where it
belongs, whatever is open around it. This is an induction on the value, together with what the
reader makes of the rest of an array or object. The text of a value is then read back in two steps,
the tokens first.

## Lawful forms

A form is lawful if its reader takes back what its writer wrote, and if the writer writes no number
in a way that only this number's literal could tell. The forms of numbers, texts, lists and vectors
are lawful. For a structure it is enough that its fields have different names: each is then found
under its own.
-/

namespace CalcWatch

/-! ## Values -/

section

open JsonToken (Apart)
open JsonReader (Frame Phase deliver take)

namespace Json

/-! ### From tokens to the value -/

theorem exists_first_token (j : Json) : ∃ t ts, j.tokens = t :: ts ∧ t ≠ .endArray := by
  have hfirst : j.tokens.head? ≠ none ∧ j.tokens.head? ≠ some .endArray := by
    cases j with
    | array items => cases items <;> simp [tokens]
    | object members => cases members <;> simp [tokens]
    | _ => simp [tokens]
  cases htokens : j.tokens with
  | nil => exact absurd (congrArg List.head? htokens) hfirst.1
  | cons t ts =>
    refine ⟨t, ts, rfl, ?_⟩
    rintro rfl
    exact hfirst.2 (congrArg List.head? htokens)

theorem foldlM_take_item (j : Json) (items : List Json) (frames : List Frame) :
    j.tokens.foldlM take ⟨.array items :: frames, .item⟩ =
      j.tokens.foldlM take ⟨.array items :: frames, .value⟩ := by
  obtain ⟨t, ts, htokens, hfirst⟩ := j.exists_first_token
  rw [htokens, List.foldlM_cons, List.foldlM_cons]
  cases t with
  | endArray => exact absurd rfl hfirst
  | _ => rfl

/-- A member is read behind a key that may stand there, if its value can be read. -/
theorem foldlM_take_member {value : Json}
    (hvalue : ∀ frames, value.tokens.foldlM take ⟨frames, .value⟩ = deliver value frames)
    {phase : Phase} (hphase : phase = .member ∨ phase = .key) (key : Option String)
    (read : List (Option String × Json)) (frames : List Frame) (rest : List JsonToken) :
    (.string key :: .colon :: (value.tokens ++ rest)).foldlM take ⟨.object read :: frames, phase⟩ =
      rest.foldlM take ⟨.object ((key, value) :: read) :: frames, .separator⟩ := by
  have hkey : take ⟨.object read :: frames, phase⟩ (.string key) =
      some ⟨.member read key :: frames, .colon⟩ := by
    rcases hphase with rfl | rfl <;> rfl
  have hcolon : take ⟨.member read key :: frames, .colon⟩ .colon =
      some ⟨.member read key :: frames, .value⟩ := rfl
  have hdeliver : value.tokens.foldlM take ⟨.member read key :: frames, .value⟩ =
      some ⟨.object ((key, value) :: read) :: frames, .separator⟩ := hvalue _
  rw [foldlM_cons_of_some hkey, foldlM_cons_of_some hcolon, foldlM_append_of_some hdeliver]

mutual

/-- Where a value may stand, the tokens of a value deliver it. -/
theorem foldlM_take_tokens : ∀ (j : Json) (frames : List Frame),
    j.tokens.foldlM take ⟨frames, .value⟩ = deliver j frames
  | .null, frames | .bool b, frames | .integer n, frames | .decimal literal, frames
  | .string text, frames => by
    rw [tokens, List.foldlM_cons]
    exact bind_pure _
  | .array [], frames => by
    have hbegin : take ⟨frames, .value⟩ .beginArray = some ⟨.array [] :: frames, .item⟩ := rfl
    rw [tokens, foldlM_cons_of_some hbegin, List.foldlM_cons]
    exact bind_pure _
  | .array (item :: items), frames => by
    have hbegin : take ⟨frames, .value⟩ .beginArray = some ⟨.array [] :: frames, .item⟩ := rfl
    -- the array may still end where the first item is read
    have hitem : item.tokens.foldlM take ⟨.array [] :: frames, .item⟩ =
        some ⟨.array [item] :: frames, .separator⟩ := by
      rw [foldlM_take_item, foldlM_take_tokens item, deliver]
    rw [tokens, foldlM_cons_of_some hbegin, foldlM_append_of_some hitem,
      foldlM_take_itemTokens items]
    rfl
  | .object [], frames => by
    have hbegin : take ⟨frames, .value⟩ .beginObject = some ⟨.object [] :: frames, .member⟩ := rfl
    rw [tokens, foldlM_cons_of_some hbegin, List.foldlM_cons]
    exact bind_pure _
  | .object ((key, value) :: members), frames => by
    have hbegin : take ⟨frames, .value⟩ .beginObject = some ⟨.object [] :: frames, .member⟩ := rfl
    rw [tokens, foldlM_cons_of_some hbegin,
      foldlM_take_member (foldlM_take_tokens value) (.inl rfl), foldlM_take_memberTokens members]
    rfl

/-- The tokens after an item deliver the array with the items that are left. -/
theorem foldlM_take_itemTokens : ∀ (items read : List Json) (frames : List Frame),
    (itemTokens items).foldlM take ⟨.array read :: frames, .separator⟩ =
      deliver (.array (read.reverse ++ items)) frames
  | [], read, frames => by
    rw [itemTokens, List.foldlM_cons, List.append_nil]
    exact bind_pure _
  | item :: items, read, frames => by
    have hcomma : take ⟨.array read :: frames, .separator⟩ .comma =
        some ⟨.array read :: frames, .value⟩ := rfl
    have hitem : item.tokens.foldlM take ⟨.array read :: frames, .value⟩ =
        some ⟨.array (item :: read) :: frames, .separator⟩ := by
      rw [foldlM_take_tokens item, deliver]
    rw [itemTokens, foldlM_cons_of_some hcomma, foldlM_append_of_some hitem,
      foldlM_take_itemTokens items, List.reverse_cons, List.append_assoc, List.singleton_append]

/-- The tokens after a member deliver the object with the members that are left. -/
theorem foldlM_take_memberTokens :
    ∀ (members read : List (Option String × Json)) (frames : List Frame),
      (memberTokens members).foldlM take ⟨.object read :: frames, .separator⟩ =
        deliver (.object (read.reverse ++ members)) frames
  | [], read, frames => by
    rw [memberTokens, List.foldlM_cons, List.append_nil]
    exact bind_pure _
  | (key, value) :: members, read, frames => by
    have hcomma : take ⟨.object read :: frames, .separator⟩ .comma =
        some ⟨.object read :: frames, .key⟩ := rfl
    rw [memberTokens, foldlM_cons_of_some hcomma,
      foldlM_take_member (foldlM_take_tokens value) (.inr rfl), foldlM_take_memberTokens members,
      List.reverse_cons, List.append_assoc, List.singleton_append]

end

theorem ofTokens?_tokens (j : Json) : ofTokens? j.tokens = some j := by
  rw [ofTokens?, foldlM_take_tokens]
  rfl

/-! ### From the text to the tokens -/

theorem isChain_cons {t : JsonToken} {ts : List JsonToken} (ht : t.EndsItself)
    (hts : ts.IsChain Apart) : (t :: ts).IsChain Apart :=
  List.isChain_cons.mpr ⟨fun _ _ ↦ .inl ht, hts⟩

theorem isChain_append {ts us : List JsonToken} (hts : ts.IsChain Apart) (hus : us.IsChain Apart)
    (hfirst : ∀ u ∈ us.head?, u.IsPunctuation) : (ts ++ us).IsChain Apart :=
  hts.append hus fun _ _ u hu ↦ .inr (hfirst u hu)

theorem isPunctuation_head_itemTokens (items : List Json) :
    ∀ t ∈ (itemTokens items).head?, t.IsPunctuation := by
  cases items <;> simp [itemTokens, JsonToken.IsPunctuation]

theorem isPunctuation_head_memberTokens (members : List (Option String × Json)) :
    ∀ t ∈ (memberTokens members).head?, t.IsPunctuation := by
  cases members <;> simp [memberTokens, JsonToken.IsPunctuation]

mutual

/-- Between two literals of a value there is punctuation. -/
theorem isChain_tokens : ∀ j : Json, j.tokens.IsChain Apart
  | .null | .bool b | .integer n | .decimal literal | .string text => by
    rw [tokens]
    exact .singleton _
  | .array [] => by
    rw [tokens]
    exact isChain_cons trivial (.singleton _)
  | .array (item :: items) => by
    rw [tokens]
    exact isChain_cons trivial (isChain_append (isChain_tokens item) (isChain_itemTokens items)
      (isPunctuation_head_itemTokens items))
  | .object [] => by
    rw [tokens]
    exact isChain_cons trivial (.singleton _)
  | .object ((key, value) :: members) => by
    rw [tokens]
    refine isChain_cons trivial (isChain_cons trivial (isChain_cons trivial ?_))
    exact isChain_append (isChain_tokens value) (isChain_memberTokens members)
      (isPunctuation_head_memberTokens members)

theorem isChain_itemTokens : ∀ items : List Json, (itemTokens items).IsChain Apart
  | [] => by
    rw [itemTokens]
    exact .singleton _
  | item :: items => by
    rw [itemTokens]
    exact isChain_cons trivial (isChain_append (isChain_tokens item) (isChain_itemTokens items)
      (isPunctuation_head_itemTokens items))

theorem isChain_memberTokens :
    ∀ members : List (Option String × Json), (memberTokens members).IsChain Apart
  | [] => by
    rw [memberTokens]
    exact .singleton _
  | (key, value) :: members => by
    rw [memberTokens]
    refine isChain_cons trivial (isChain_cons trivial (isChain_cons trivial ?_))
    exact isChain_append (isChain_tokens value) (isChain_memberTokens members)
      (isPunctuation_head_memberTokens members)

end

/-- No number in the value is kept as it was written. -/
def Plain (j : Json) : Prop := ∀ t ∈ j.tokens, t.Plain

/-- **Values can be read back** from their text. -/
theorem parse?_render {j : Json} (h : j.Plain) : parse? j.render = some j := by
  rw [parse?, render, String.toList_ofList, ofChars?, chars,
    JsonToken.ofChars?_flatMap h j.isChain_tokens]
  exact ofTokens?_tokens j

/-! ### Plain values -/

theorem plain_itemTokens {items : List Json} (h : ∀ item ∈ items, item.Plain) :
    ∀ t ∈ itemTokens items, t.Plain := by
  induction items with
  | nil => simp [itemTokens, JsonToken.Plain]
  | cons item items ih =>
    obtain ⟨hitem, hitems⟩ := List.forall_mem_cons.mp h
    rw [itemTokens, List.forall_mem_cons, List.forall_mem_append]
    exact ⟨trivial, hitem, ih hitems⟩

theorem plain_memberTokens {members : List (Option String × Json)}
    (h : ∀ member ∈ members, member.2.Plain) : ∀ t ∈ memberTokens members, t.Plain := by
  induction members with
  | nil => simp [memberTokens, JsonToken.Plain]
  | cons member members ih =>
    obtain ⟨hvalue, hmembers⟩ := List.forall_mem_cons.mp h
    rw [memberTokens, List.forall_mem_cons, List.forall_mem_cons, List.forall_mem_cons,
      List.forall_mem_append]
    exact ⟨trivial, trivial, trivial, hvalue, ih hmembers⟩

theorem plain_array {items : List Json} (h : ∀ item ∈ items, item.Plain) : (array items).Plain := by
  cases items with
  | nil => simp [Plain, tokens, JsonToken.Plain]
  | cons item items =>
    obtain ⟨hitem, hitems⟩ := List.forall_mem_cons.mp h
    rw [Plain, tokens, List.forall_mem_cons, List.forall_mem_append]
    exact ⟨trivial, hitem, plain_itemTokens hitems⟩

theorem plain_object {members : List (Option String × Json)}
    (h : ∀ member ∈ members, member.2.Plain) : (object members).Plain := by
  cases members with
  | nil => simp [Plain, tokens, JsonToken.Plain]
  | cons member members =>
    obtain ⟨hvalue, hmembers⟩ := List.forall_mem_cons.mp h
    rw [Plain, tokens, List.forall_mem_cons, List.forall_mem_cons, List.forall_mem_cons,
      List.forall_mem_append]
    exact ⟨trivial, trivial, trivial, hvalue, plain_memberTokens hmembers⟩

end Json

end

/-! ## Lawful forms -/

section

open JsonForm (encode decode?)

/-- A type whose form can be read back. -/
class LawfulJsonForm (α : Type) [JsonForm α] : Prop where
  /-- What was written is read. -/
  decode_encode : ∀ v : α, decode? (encode v) = some v
  /-- Every number is written as an integer. -/
  plain_encode : ∀ v : α, (encode v).Plain

export LawfulJsonForm (decode_encode plain_encode)

variable {α : Type} [JsonForm α]

namespace JsonForm

def write (v : α) : String := (encode v).render

/-- The value that is read from a text, if the text is accepted. -/
def read? (text : String) : Option α := (Json.parse? text).bind decode?

theorem read?_of_parse? {text : String} {j : Json} (h : Json.parse? text = some j) :
    (read? text : Option α) = decode? j := by
  rw [read?, h, Option.bind_some]

theorem read?_write [LawfulJsonForm α] (v : α) : read? (write v) = some v := by
  rw [write, read?_of_parse? (Json.parse?_render (plain_encode v)), decode_encode]

/-- Values survive being written and read, and so does whatever was read from a text. -/
structure RoundTrips (α : Type) [JsonForm α] : Prop where
  read_write : ∀ v : α, read? (write v) = some v
  reread : ∀ (text : String) (v : α), read? text = some v → read? (write v) = some v

theorem roundTrips [LawfulJsonForm α] : RoundTrips α := ⟨read?_write, fun _ v _ ↦ read?_write v⟩

end JsonForm

namespace Json

/-! ### Values without parts -/

theorem plain_integer (n : ℤ) : (integer n).Plain := by
  simp [Plain, tokens, JsonToken.Plain]

theorem plain_bool (b : Bool) : (bool b).Plain := by
  simp [Plain, tokens, JsonToken.Plain]

theorem plain_text (s : String) : (text s).Plain := by
  simp [Plain, text, tokens, JsonToken.Plain]

theorem integerIn?_of_mem {low high n : ℤ} (hlow : low ≤ n) (hhigh : n ≤ high) :
    integerIn? low high (.integer n) = some n := by
  rw [integerIn?, if_pos ⟨hlow, hhigh⟩]

theorem integerIn?_natural {high n : ℕ} (h : n ≤ high) :
    integerIn? 0 high (natural n) = some (n : ℤ) :=
  integerIn?_of_mem (Int.natCast_nonneg n) (Int.ofNat_le.mpr h)

instance : LawfulJsonForm UInt8 where
  decode_encode n := by
    have hread : integerIn? 0 0xFF (encode n) = some (n.toNat : ℤ) :=
      integerIn?_natural (Nat.le_of_lt_succ n.toNat_lt)
    change (integerIn? 0 0xFF (encode n)).map _ = some n
    rw [hread, Option.map_some, Int.toNat_natCast, UInt8.ofNat_toNat]
  plain_encode _ := plain_integer _

instance : LawfulJsonForm UInt16 where
  decode_encode n := by
    have hread : integerIn? 0 0xFFFF (encode n) = some (n.toNat : ℤ) :=
      integerIn?_natural (Nat.le_of_lt_succ n.toNat_lt)
    change (integerIn? 0 0xFFFF (encode n)).map _ = some n
    rw [hread, Option.map_some, Int.toNat_natCast, UInt16.ofNat_toNat]
  plain_encode _ := plain_integer _

instance : LawfulJsonForm UInt32 where
  decode_encode n := by
    have hread : integerIn? 0 0xFFFFFFFF (encode n) = some (n.toNat : ℤ) :=
      integerIn?_natural (Nat.le_of_lt_succ n.toNat_lt)
    change (integerIn? 0 0xFFFFFFFF (encode n)).map _ = some n
    rw [hread, Option.map_some, Int.toNat_natCast, UInt32.ofNat_toNat]
  plain_encode _ := plain_integer _

instance : LawfulJsonForm Int32 where
  decode_encode n := by
    have hread : integerIn? (-0x80000000) 0x7FFFFFFF (encode n) = some n.toInt :=
      integerIn?_of_mem n.le_toInt n.toInt_le
    change (integerIn? (-0x80000000) 0x7FFFFFFF (encode n)).map _ = some n
    rw [hread, Option.map_some, Int32.ofInt_toInt]
  plain_encode _ := plain_integer _

instance : LawfulJsonForm Bool where
  decode_encode _ := rfl
  plain_encode := plain_bool

instance : LawfulJsonForm String where
  decode_encode _ := rfl
  plain_encode := plain_text

/-! ### Lists and vectors -/

theorem mapM_eq_some_iff {α β : Type} {f : α → Option β} {xs : List α} {ys : List β} :
    xs.mapM f = some ys ↔ List.Forall₂ (fun x y ↦ f x = some y) xs ys := by
  constructor
  · intro h
    induction xs generalizing ys with
    | nil =>
      cases h
      exact .nil
    | cons x xs ih =>
      rw [List.mapM_cons] at h
      obtain ⟨y, hy, hlater⟩ := Option.bind_eq_some_iff.mp h
      obtain ⟨ys', hys, heq⟩ := Option.bind_eq_some_iff.mp hlater
      cases heq
      exact .cons hy (ih hys)
  · intro h
    induction h with
    | nil => rfl
    | cons hfirst _ ih =>
      rw [List.mapM_cons, hfirst, ih]
      rfl

theorem mapM_eq_some_map {α β : Type} {f : α → Option β} {g : α → β} {xs : List α}
    (h : ∀ x ∈ xs, f x = some (g x)) : xs.mapM f = some (xs.map g) :=
  mapM_eq_some_iff.mpr (List.forall₂_map_right_iff.mpr (List.forall₂_same.mpr h))

theorem decode?_list_eq_some_iff {j : Json} {vs : List α} :
    decode? j = some vs ↔
      ∃ items, j = .array items ∧ List.Forall₂ (fun item v ↦ decode? item = some v) items vs := by
  constructor
  · intro h
    cases j with
    | array items => exact ⟨items, rfl, mapM_eq_some_iff.mp h⟩
    | _ => cases h
  · rintro ⟨items, rfl, hitems⟩
    exact mapM_eq_some_iff.mpr hitems

instance [LawfulJsonForm α] : LawfulJsonForm (List α) where
  decode_encode items := by
    change (items.map encode).mapM decode? = some items
    have hitems : ∀ item ∈ items, (decode? ∘ encode) item = some item :=
      fun item _ ↦ decode_encode item
    rw [List.mapM_map, mapM_eq_some_map hitems, List.map_id']
  plain_encode items := by
    refine plain_array fun j hj ↦ ?_
    obtain ⟨item, -, rfl⟩ := List.mem_map.mp hj
    exact plain_encode item

instance {n : ℕ} [LawfulJsonForm α] : LawfulJsonForm (Vector α n) where
  decode_encode items := by
    have hitems : decode? (encode items) = some items.toList := decode_encode items.toList
    change (decode? (encode items)).bind _ = some items
    rw [hitems, Option.bind_some, dif_pos items.length_toList]
    rfl
  plain_encode items := plain_encode items.toList

/-! ### Structures -/

/-- Of fields with different names, one has a given name. -/
theorem filter_fst_eq {fields : List (String × Json)} (hnodup : (fields.map Prod.fst).Nodup)
    {field : String × Json} (hmem : field ∈ fields) :
    fields.filter (·.1 == field.1) = [field] := by
  induction fields with
  | nil => cases hmem
  | cons first fields ih =>
    obtain ⟨hfirst, hfields⟩ := List.nodup_cons.mp hnodup
    rcases List.mem_cons.mp hmem with rfl | hmem
    · have hothers : fields.filter (·.1 == field.1) = [] := by
        refine List.filter_eq_nil_iff.mpr fun other hother hname ↦ hfirst ?_
        rw [← beq_iff_eq.mp hname]
        exact List.mem_map_of_mem hother
      rw [List.filter_cons, if_pos (beq_self_eq_true _), hothers]
    · have hname : ¬ (first.1 == field.1) = true := by
        rw [beq_iff_eq]
        exact fun hname ↦ hfirst (hname ▸ List.mem_map_of_mem hmem)
      rw [List.filter_cons, if_neg hname, ih hfields hmem]

theorem filter_named (name : String) (fields : List (String × Json)) :
    (fields.map fun field ↦ (some field.1, field.2)).filter (·.1 == some name) =
      (fields.filter (·.1 == name)).map fun field ↦ (some field.1, field.2) := by
  have hsome : ((·.1 == some name) ∘ fun field : String × Json ↦ (some field.1, field.2)) =
      fun other ↦ other.1 == name := by
    funext other
    exact Option.some_beq_some
  rw [List.filter_map, hsome]

theorem fields?_record (names : List String) (fields : List (String × Json)) :
    fields? names (record fields) =
      names.mapM fun name ↦ member? name (fields.map fun field ↦ (some field.1, field.2)) := by
  rw [record, fields?, if_pos (by simp)]

theorem member?_record {fields : List (String × Json)} (hnodup : (fields.map Prod.fst).Nodup)
    {field : String × Json} (hmem : field ∈ fields) :
    member? field.1 (fields.map fun field ↦ (some field.1, field.2)) = some (some field.2) := by
  rw [member?, filter_named, filter_fst_eq hnodup hmem]
  rfl

/-- A structure is read from the values of its fields, if these have different names. -/
theorem decode_record {α : Type} {fields : List (String × Json)}
    (hnodup : (fields.map Prod.fst).Nodup) {next : List (Option Json) → Option α} {v : α}
    (hnext : next (fields.map fun field ↦ some field.2) = some v) :
    (fields? (fields.map Prod.fst) (record fields) >>= next) = some v := by
  have hfields : fields? (fields.map Prod.fst) (record fields) =
      some (fields.map fun field ↦ some field.2) := by
    rw [fields?_record, List.mapM_map]
    exact mapM_eq_some_map fun field hfield ↦ member?_record hnodup hfield
  rw [hfields]
  exact hnext

theorem plain_record {fields : List (String × Json)} (h : ∀ field ∈ fields, field.2.Plain) :
    (record fields).Plain := by
  refine plain_object fun member hmember ↦ ?_
  obtain ⟨field, hfield, rfl⟩ := List.mem_map.mp hmember
  exact h field hfield

@[simp] theorem required_encode [LawfulJsonForm α] (v : α) :
    required (some (encode v)) = some v := decode_encode v

@[simp] theorem defaulted_encode [LawfulJsonForm α] (absent v : α) :
    defaulted absent (some (encode v)) = some v := decode_encode v

end Json

end

end CalcWatch
