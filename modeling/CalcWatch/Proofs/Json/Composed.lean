import CalcWatch.Proofs.Json.Values

/-!
# Texts put together

The text of an array or object may be put together from any texts of its parts, whatever blanks and
escapes these contain: the reader takes each of them as it would take it alone.

## Paths

A text is followed as a path of the reader from one state to another, `Leads`. Paths are joined at
punctuation: two texts with a mark between them lead along both paths, with the step that the mark
makes in between, `Leads.append`. That is enough for arrays and objects, which are values with marks
around them.

## Why a text may be taken alone

There are two readers, and each of them has to forget what came before. The reader of tokens does so
at a mark: whatever it holds ends there, so the tokens of a text with a mark inside are those of the
two parts with the mark between them. The tokens that were read before are carried along and never
looked at, which is `JsonLexer.after`. The reader of values does so while something is open around a
value: with other arrays and objects around it, `State.inside`, it makes the same steps that it
makes without them, until the value is complete and is delivered to the innermost of them. That the
two go on in step is `Reaches`, and it is kept by every token.
-/

namespace CalcWatch

open JsonToken (ofChars?)

/-! ## Tokens behind other tokens -/

namespace JsonLexer

variable (read : List JsonToken)

/-- The reader, when it has read other tokens before. -/
def after (lexer : JsonLexer) : JsonLexer := ⟨lexer.tokens ++ read, lexer.mode⟩

theorem start_append (tokens : List JsonToken) (c : Char) :
    start (tokens ++ read) c = (start tokens c).map (after read) := by
  rw [start, start]
  cases punctuation? c with
  | some t => rfl
  | none => split_ifs <;> rfl

theorem bind_start_append (token : Option JsonToken) (tokens : List JsonToken) (c : Char) :
    (token.bind fun t ↦ start (t :: (tokens ++ read)) c) =
      (token.bind fun t ↦ start (t :: tokens) c).map (after read) := by
  cases token with
  | none => rfl
  | some t => exact start_append read (t :: tokens) c

theorem feed_after (lexer : JsonLexer) (c : Char) :
    feed (lexer.after read) c = (feed lexer c).map (after read) := by
  obtain ⟨tokens, mode⟩ := lexer
  cases mode with
  | between => exact start_append read tokens c
  | number taken =>
    rw [after, feed_number, feed_number]
    split_ifs
    · rfl
    · exact bind_start_append read _ tokens c
  | name taken =>
    rw [after, feed_name, feed_name]
    split_ifs
    · rfl
    · exact bind_start_append read _ tokens c
  | string units =>
    rw [after, feed_string, feed_string]
    split_ifs <;> rfl
  | escape units =>
    rw [after, feed_escape, feed_escape]
    split_ifs
    · rfl
    · cases JsonToken.escape? c <;> rfl
  | numeric units left value =>
    cases left with
    | zero =>
      rw [after, feed_numeric_zero, feed_numeric_zero]
      cases Text.digitValue? c <;> rfl
    | succ left =>
      rw [after, feed_numeric_succ, feed_numeric_succ]
      cases Text.digitValue? c <;> rfl

theorem foldlM_feed_after (cs : List Char) (lexer : JsonLexer) :
    cs.foldlM feed (lexer.after read) = (cs.foldlM feed lexer).map (after read) := by
  induction cs generalizing lexer with
  | nil => rfl
  | cons c cs ih =>
    rw [List.foldlM_cons, List.foldlM_cons, feed_after]
    cases feed lexer c with
    | none => rfl
    | some next => exact ih next

theorem finish_after (lexer : JsonLexer) :
    finish (lexer.after read) = (finish lexer).map (read.reverse ++ ·) := by
  obtain ⟨tokens, mode⟩ := lexer
  cases mode with
  | between => simp [after, finish]
  | number taken =>
    simp only [after, finish]
    cases JsonToken.ofNumber? taken.reverse <;> simp
  | name taken =>
    simp only [after, finish]
    cases JsonToken.ofName? taken.reverse <;> simp
  | string | escape | numeric => rfl

/-- Where a text may end, a punctuation mark may stand. -/
theorem feed_of_finish {lexer : JsonLexer} {ts : List JsonToken} (h : finish lexer = some ts)
    {c : Char} {mark : JsonToken} (hmark : punctuation? c = some mark)
    (hnumeric : isNumeric c = false) (hletter : isLetter c = false) :
    feed lexer c = some ⟨mark :: ts.reverse, .between⟩ := by
  have hstart : ∀ tokens, start tokens c = some ⟨mark :: tokens, .between⟩ := fun tokens ↦ by
    rw [start, hmark]
  obtain ⟨tokens, mode⟩ := lexer
  -- a number or a name ends here, if it is complete
  have hlast : ∀ token : Option JsonToken,
      (token.bind fun t ↦ some (t :: tokens).reverse) = some ts →
      (token.bind fun t ↦ start (t :: tokens) c) = some ⟨mark :: ts.reverse, .between⟩ := by
    intro token htoken
    obtain ⟨t, rfl, hts⟩ := Option.bind_eq_some_iff.mp htoken
    cases hts
    rw [List.reverse_reverse]
    exact hstart (t :: tokens)
  cases mode with
  | between =>
    cases h
    rw [List.reverse_reverse]
    exact hstart tokens
  | number taken =>
    rw [feed_number, hnumeric, if_neg Bool.false_ne_true]
    exact hlast _ h
  | name taken =>
    rw [feed_name, hletter, if_neg Bool.false_ne_true]
    exact hlast _ h
  | string | escape | numeric => cases h

end JsonLexer

namespace JsonToken

open JsonLexer (feed finish foldlM_feed_after finish_after feed_of_finish)

theorem ofChars?_append_mark {cs rest : List Char} {ts us : List JsonToken} {mark : JsonToken}
    (hcs : ofChars? cs = some ts) (hmark : mark.IsPunctuation) (hrest : ofChars? rest = some us) :
    ofChars? (cs ++ (mark.chars ++ rest)) = some (ts ++ mark :: us) := by
  obtain ⟨lexer, hlexer, hfinish⟩ := Option.bind_eq_some_iff.mp hcs
  obtain ⟨later, hlater, hend⟩ := Option.bind_eq_some_iff.mp hrest
  obtain ⟨c, hchars, hpunctuation, hnumeric, hletter⟩ := hmark.exists_char
  have hfeed := feed_of_finish hfinish hpunctuation hnumeric hletter
  -- behind the mark the reader stands where it stands at the beginning, but for what it has read
  have hnext : (⟨mark :: ts.reverse, .between⟩ : JsonLexer) =
      JsonLexer.after (mark :: ts.reverse) {} := rfl
  rw [ofChars?, foldlM_append_of_some hlexer, hchars, List.singleton_append,
    foldlM_cons_of_some hfeed, hnext, foldlM_feed_after, hlater, Option.map_some, Option.bind_some,
    finish_after, hend]
  simp

end JsonToken

/-! ## Values inside of other values -/

namespace JsonReader

variable {state next : State} {frames outer : List Frame} {value : Json} {token : JsonToken}

/-- The reader, when other arrays and objects are open around what it reads. -/
def State.inside (outer : List Frame) (state : State) : State :=
  ⟨state.frames ++ outer, state.phase⟩

/-- The reader stands at `inner` inside of what is open, or delivers there the value that is
complete at `inner`. -/
def Reaches (outer : List Frame) (inner : State) (result : Option State) : Prop :=
  (∃ value, inner = ⟨[], .done value⟩ ∧ result = deliver value outer) ∨
    (∀ value, inner.phase ≠ .done value) ∧ result = some (inner.inside outer)

theorem reaches_deliver (h : deliver value frames = some next) :
    Reaches outer next (deliver value (frames ++ outer)) := by
  cases frames with
  | nil =>
    cases h
    exact .inl ⟨value, rfl, rfl⟩
  | cons frame rest =>
    cases frame <;> cases h <;> exact .inr ⟨nofun, rfl⟩

theorem reaches_beginValue (h : beginValue frames token = some next) :
    Reaches outer next (beginValue (frames ++ outer) token) := by
  cases token with
  | beginArray | beginObject =>
    cases h
    exact .inr ⟨nofun, rfl⟩
  | null | bool | integer | decimal | string => exact reaches_deliver h
  | endArray | endObject | colon | comma => cases h

theorem take_item (h : token ≠ .endArray) :
    take ⟨frames, .item⟩ token = beginValue frames token := by
  cases token with
  | endArray => exact absurd rfl h
  | _ => rfl

theorem exists_object_of_take {phase : Phase} (hphase : phase = .member ∨ phase = .key)
    (h : take ⟨frames, phase⟩ token = some next) :
    ∃ members rest, frames = .object members :: rest := by
  rcases frames with _ | ⟨_ | members | _, rest⟩
  case cons.object => exact ⟨members, rest, rfl⟩
  all_goals rcases hphase with rfl | rfl <;> cases token <;> cases h

theorem reaches_take (outer : List Frame) (h : take state token = some next) :
    Reaches outer next (take (state.inside outer) token) := by
  obtain ⟨frames, phase⟩ := state
  cases phase with
  | value => exact reaches_beginValue h
  | item =>
    by_cases hend : token = .endArray
    · subst hend
      rcases frames with _ | ⟨items | _ | _, rest⟩
      case cons.array => exact reaches_deliver h
      all_goals cases h
    · rw [take_item hend] at h
      rw [State.inside, take_item hend]
      exact reaches_beginValue h
  | member =>
    obtain ⟨members, rest, rfl⟩ := exists_object_of_take (.inl rfl) h
    cases token with
    | endObject => exact reaches_deliver h
    | string key =>
      cases h
      exact .inr ⟨nofun, rfl⟩
    | _ => cases h
  | key =>
    obtain ⟨members, rest, rfl⟩ := exists_object_of_take (.inr rfl) h
    cases token with
    | string key =>
      cases h
      exact .inr ⟨nofun, rfl⟩
    | _ => cases h
  | colon =>
    cases token with
    | colon =>
      cases h
      exact .inr ⟨nofun, rfl⟩
    | _ => cases h
  | separator =>
    rcases frames with _ | ⟨items | members | _, rest⟩
    case cons.array =>
      cases token with
      | comma =>
        cases h
        exact .inr ⟨nofun, rfl⟩
      | endArray => exact reaches_deliver h
      | _ => cases h
    case cons.object =>
      cases token with
      | comma =>
        cases h
        exact .inr ⟨nofun, rfl⟩
      | endObject => exact reaches_deliver h
      | _ => cases h
    all_goals cases token <;> cases h
  | done => cases token <;> cases h

/-- The tokens of a value deliver it wherever a value may stand. -/
theorem foldlM_take_inside {ts : List JsonToken} (hopen : ∀ value, state.phase ≠ .done value)
    (h : ts.foldlM take state = some next) (hdone : next.phase = .done value) :
    ts.foldlM take (state.inside outer) = deliver value outer := by
  induction ts generalizing state with
  | nil =>
    cases h
    exact absurd hdone (hopen value)
  | cons t ts ih =>
    rw [List.foldlM_cons] at h
    obtain ⟨middle, hfirst, hrest⟩ := Option.bind_eq_some_iff.mp h
    rw [List.foldlM_cons]
    rcases reaches_take outer hfirst with ⟨complete, rfl, htake⟩ | ⟨hmiddle, htake⟩
    · -- behind a complete value nothing may follow
      cases ts with
      | nil =>
        cases hrest
        cases hdone
        rw [htake]
        exact bind_pure _
      | cons u us =>
        have hnothing : take ⟨[], .done complete⟩ u = none := by cases u <;> rfl
        rw [List.foldlM_cons, hnothing] at hrest
        cases hrest
    · rw [htake]
      exact ih hmiddle hrest

end JsonReader

/-! ## Paths of the reader -/

namespace Json

open JsonReader (State Frame Phase deliver take take_item)

variable {cs rest : List Char} {s t u v : State} {value : Json} {text : String}
  {frames : List Frame}

/-- A text leads the reader of values from one state to another. -/
def Leads (cs : List Char) (s t : State) : Prop :=
  ∃ ts, JsonToken.ofChars? cs = some ts ∧ ts.foldlM take s = some t

theorem leads_nil (s : State) : Leads [] s s := ⟨[], rfl, rfl⟩

/-- Two texts with a punctuation mark between them lead the reader along both paths. -/
theorem Leads.append (hcs : Leads cs s t) (mark : JsonToken) (hmark : mark.IsPunctuation)
    (htake : take t mark = some u) (hrest : Leads rest u v) :
    Leads (cs ++ (mark.chars ++ rest)) s v := by
  obtain ⟨ts, hts, hpath⟩ := hcs
  obtain ⟨us, hus, hlater⟩ := hrest
  refine ⟨ts ++ mark :: us, JsonToken.ofChars?_append_mark hts hmark hus, ?_⟩
  rw [foldlM_append_of_some hpath, foldlM_cons_of_some htake, hlater]

theorem parse?_of_leads (h : Leads text.toList {} ⟨[], .done value⟩) :
    parse? text = some value := by
  obtain ⟨ts, hts, hpath⟩ := h
  rw [parse?, Json.ofChars?, hts, Option.bind_eq_bind, Option.bind_some, ofTokens?, hpath]
  rfl

/-- A list of tokens that denotes a value denotes it wherever a value may stand. -/
theorem foldlM_take_of_ofTokens? {ts : List JsonToken} (h : ofTokens? ts = some value)
    {phase : Phase} (hphase : phase = .value ∨ phase = .item) (frames : List Frame) :
    ts.foldlM take ⟨frames, phase⟩ = deliver value frames := by
  obtain ⟨last, hpath, hlast⟩ := Option.bind_eq_some_iff.mp h
  have hdone : last.phase = .done value := by
    split at hlast
    · cases hlast
      assumption
    · cases hlast
  have hopen : ∀ complete, (State.mk [] .value).phase ≠ .done complete := nofun
  have hvalue : ts.foldlM take ⟨frames, .value⟩ = deliver value frames :=
    JsonReader.foldlM_take_inside hopen hpath hdone
  rcases hphase with rfl | rfl
  · exact hvalue
  -- an array may end where its first item is read, but no value begins with the end of an array
  cases ts with
  | nil =>
    cases hpath
    cases hdone
  | cons t ts =>
    have hfirst : t ≠ .endArray := by
      rintro rfl
      cases hpath
    rw [← hvalue, List.foldlM_cons, List.foldlM_cons, take_item hfirst]
    rfl

theorem leads_of_parse? (h : parse? text = some value) {phase : Phase}
    (hphase : phase = .value ∨ phase = .item) (hdeliver : deliver value frames = some t) :
    Leads text.toList ⟨frames, phase⟩ t := by
  obtain ⟨ts, hts, hvalue⟩ := Option.bind_eq_some_iff.mp h
  exact ⟨ts, hts, (foldlM_take_of_ofTokens? hvalue hphase frames).trans hdeliver⟩

/-! ## Arrays -/

/-- A value with a text of it. -/
structure WrittenValue where
  /-- The text. -/
  text : String
  /-- The value. -/
  value : Json
  /-- The text is one of the value. -/
  parse?_text : parse? text = some value

/-- The characters behind an item, to the end of the array. -/
def itemChars : List WrittenValue → List Char
  | [] => JsonToken.endArray.chars
  | item :: items => JsonToken.comma.chars ++ (item.text.toList ++ itemChars items)

/-- The text of an array, put together from texts of its items. -/
def arrayText : List WrittenValue → String
  | [] => String.ofList (JsonToken.beginArray.chars ++ JsonToken.endArray.chars)
  | item :: items =>
    String.ofList (JsonToken.beginArray.chars ++ (item.text.toList ++ itemChars items))

/-- What comes behind an item leads to where the whole array has been delivered. -/
theorem Leads.append_itemChars (items : List WrittenValue) {read : List Json}
    (hcs : Leads cs s ⟨.array read :: frames, .separator⟩)
    (hdeliver : deliver (.array (read.reverse ++ items.map WrittenValue.value)) frames = some t) :
    Leads (cs ++ itemChars items) s t := by
  induction items generalizing cs s read with
  | nil =>
    rw [List.map_nil, List.append_nil] at hdeliver
    exact hcs.append .endArray trivial hdeliver (leads_nil t)
  | cons item items ih =>
    have hitem : Leads item.text.toList ⟨.array read :: frames, .value⟩
        ⟨.array (item.value :: read) :: frames, .separator⟩ :=
      leads_of_parse? item.parse?_text (.inl rfl) rfl
    refine hcs.append .comma trivial rfl (ih hitem ?_)
    rwa [List.reverse_cons, List.append_assoc]

/-- **Texts of items make a text of the array.** -/
theorem parse?_arrayText (items : List WrittenValue) :
    parse? (arrayText items) = some (.array (items.map WrittenValue.value)) := by
  have hbegin : take {} .beginArray = some ⟨[.array []], .item⟩ := rfl
  refine parse?_of_leads ?_
  cases items with
  | nil =>
    rw [arrayText, String.toList_ofList]
    exact (leads_nil _).append .beginArray trivial hbegin
      ((leads_nil _).append .endArray trivial rfl (leads_nil _))
  | cons item items =>
    have hitem : Leads item.text.toList ⟨[.array []], .item⟩
        ⟨[.array [item.value]], .separator⟩ :=
      leads_of_parse? item.parse?_text (.inr rfl) rfl
    rw [arrayText, String.toList_ofList]
    exact (leads_nil _).append .beginArray trivial hbegin (hitem.append_itemChars items rfl)

/-! ## Objects -/

/-- A member of an object with a text of its name and a text of its value. -/
structure WrittenMember extends WrittenValue where
  /-- The text of the name. -/
  key : String
  /-- The name. -/
  name : String
  /-- The text of the name is a string, which is the name. -/
  ofChars?_key : JsonToken.ofChars? key.toList = some [.string (some name)]

/-- The member without its texts. -/
def WrittenMember.member (m : WrittenMember) : String × Json := (m.name, m.value)

/-- The characters of a member and of what comes behind it. -/
def WrittenMember.chars (m : WrittenMember) (rest : List Char) : List Char :=
  m.key.toList ++ (JsonToken.colon.chars ++ (m.text.toList ++ rest))

/-- The characters behind a member, to the end of the object. -/
def memberChars : List WrittenMember → List Char
  | [] => JsonToken.endObject.chars
  | m :: ms => JsonToken.comma.chars ++ m.chars (memberChars ms)

/-- The text of an object, put together from texts of its members. -/
def objectText : List WrittenMember → String
  | [] => String.ofList (JsonToken.beginObject.chars ++ JsonToken.endObject.chars)
  | m :: ms => String.ofList (JsonToken.beginObject.chars ++ m.chars (memberChars ms))

/-- A member leads to where it has been read, and from there on it matters no more how. -/
theorem leads_member (m : WrittenMember) {phase : Phase} (hphase : phase = .member ∨ phase = .key)
    {read : List (Option String × Json)}
    (hrest : ∀ cs s, Leads cs s ⟨.object ((some m.name, m.value) :: read) :: frames, .separator⟩ →
      Leads (cs ++ rest) s t) :
    Leads (m.chars rest) ⟨.object read :: frames, phase⟩ t := by
  have hkey : Leads m.key.toList ⟨.object read :: frames, phase⟩
      ⟨.member read (some m.name) :: frames, .colon⟩ := by
    refine ⟨_, m.ofChars?_key, ?_⟩
    rcases hphase with rfl | rfl <;> rfl
  have hvalue : Leads m.text.toList ⟨.member read (some m.name) :: frames, .value⟩
      ⟨.object ((some m.name, m.value) :: read) :: frames, .separator⟩ :=
    leads_of_parse? m.parse?_text (.inl rfl) rfl
  exact hkey.append .colon trivial rfl (hrest _ _ hvalue)

/-- What comes behind a member leads to where the whole object has been delivered. -/
theorem Leads.append_memberChars (ms : List WrittenMember) {read : List (Option String × Json)}
    (hcs : Leads cs s ⟨.object read :: frames, .separator⟩)
    (hdeliver : deliver (.object (read.reverse ++ ms.map fun m ↦ (some m.name, m.value))) frames =
      some t) :
    Leads (cs ++ memberChars ms) s t := by
  induction ms generalizing cs s read with
  | nil =>
    rw [List.map_nil, List.append_nil] at hdeliver
    exact hcs.append .endObject trivial hdeliver (leads_nil t)
  | cons m ms ih =>
    refine hcs.append .comma trivial rfl (leads_member m (.inr rfl) fun cs s h ↦ ih h ?_)
    rwa [List.reverse_cons, List.append_assoc]

/-- **Texts of members make a text of the object.** -/
theorem parse?_objectText (ms : List WrittenMember) :
    parse? (objectText ms) = some (record (ms.map WrittenMember.member)) := by
  have hbegin : take {} .beginObject = some ⟨[.object []], .member⟩ := rfl
  rw [record, List.map_map]
  refine parse?_of_leads ?_
  cases ms with
  | nil =>
    rw [objectText, String.toList_ofList]
    exact (leads_nil _).append .beginObject trivial hbegin
      ((leads_nil _).append .endObject trivial rfl (leads_nil _))
  | cons m ms =>
    rw [objectText, String.toList_ofList]
    refine (leads_nil _).append .beginObject trivial hbegin (leads_member m (.inl rfl) ?_)
    exact fun cs s h ↦ h.append_memberChars ms rfl

end Json

end CalcWatch
