import CalcWatch.Json.Text
import CalcWatch.Proofs.Text.Numerals
import Mathlib.Data.List.Chain
import Mathlib.Data.List.TakeWhile

/-!
# Literals and tokens can be read back

The first half of the way from text to values. A literal gives back what it was written for, and a
list of tokens is read as it was written.

## Literals

An integer is written without a sign or a zero that it does not need, so its literal is never taken
for a number of another kind, and the value of its digits is the integer. The characters of a text
are code points that are no halves of surrogate pairs, so joining code units changes none of them.

## Tokens

The reader of tokens is followed token by token. Once it has taken the characters of a token it has
either completed the token, or it holds all of them and waits for a character that cannot belong to
the token. Punctuation is such a character. So a list of tokens is read back as it was written as
long as every token ends itself or has punctuation behind it.
-/

namespace CalcWatch

/-! ## Literals -/

namespace JsonToken

open Text (upperDigit lowerDigit digits digitsRev valueRev decimal_of_ne_zero)

/-! ### Digits -/

theorem isDigit_upperDigit {d : ℕ} (hd : d < 10) : isDigit (upperDigit d) = true := by
  interval_cases d <;> rfl

theorem toNat_upperDigit {d : ℕ} (hd : d < 10) : (upperDigit d).toNat - 48 = d := by
  interval_cases d <;> rfl

theorem digitsValue_append (ds : List Char) (c : Char) :
    digitsValue (ds ++ [c]) = 10 * digitsValue ds + (c.toNat - 48) := by
  rw [digitsValue, List.foldl_append, List.foldl_cons, List.foldl_nil, digitsValue]

theorem digitsValue_reverse {ds : List ℕ} (hds : ∀ d ∈ ds, d < 10) :
    digitsValue (ds.reverse.map upperDigit) = valueRev 10 ds := by
  induction ds with
  | nil => rfl
  | cons d ds ih =>
    obtain ⟨hd, hds⟩ := List.forall_mem_cons.mp hds
    rw [List.reverse_cons, List.map_append, List.map_singleton, digitsValue_append, ih hds,
      toNat_upperDigit hd, valueRev, Nat.add_comm]

theorem isDigit_of_mem_decimal {n : ℕ} {c : Char} (h : c ∈ (Text.decimal n).toList) :
    isDigit c = true := by
  obtain ⟨d, hd, rfl⟩ := Text.exists_digit_of_mem_decimal h
  exact isDigit_upperDigit hd

theorem digitsValue_decimal (n : ℕ) : digitsValue (Text.decimal n).toList = n := by
  have hdigits : ∀ d ∈ digitsRev 10 (n + 1) n, d < 10 :=
    fun d hd ↦ Text.lt_of_mem_digitsRev (by decide) hd
  rw [Text.toList_decimal, digits, digitsValue_reverse hdigits,
    Text.valueRev_digitsRev (by decide) n.lt_succ_self]

theorem isWhole_decimal (n : ℕ) : isWhole (Text.decimal n).toList = true := by
  rcases eq_or_ne n 0 with rfl | hn
  · rfl
  · obtain ⟨c, cs, hdecimal, hc⟩ := decimal_of_ne_zero hn
    have hdigit : ∀ x ∈ c :: cs, isDigit x = true :=
      fun x hx ↦ isDigit_of_mem_decimal (hdecimal ▸ hx)
    obtain ⟨hfirst, hrest⟩ := List.forall_mem_cons.mp hdigit
    rw [hdecimal]
    cases cs with
    | nil => exact hfirst
    | cons d ds =>
      rw [isWhole, hfirst, bne_iff_ne.mpr hc, List.all_eq_true.mpr hrest]
      · rfl
      · exact List.cons_ne_nil _ _

/-! ### Integers -/

theorem takeWhile_decimal (n : ℕ) :
    (Text.decimal n).toList.takeWhile isDigit = (Text.decimal n).toList :=
  List.takeWhile_eq_self_iff.mpr fun _ h ↦ isDigit_of_mem_decimal h

theorem dropWhile_decimal (n : ℕ) : (Text.decimal n).toList.dropWhile isDigit = [] :=
  List.dropWhile_eq_nil_iff.mpr fun _ h ↦ isDigit_of_mem_decimal h

theorem ofNumber?_decimal (n : ℕ) :
    ofNumber? (Text.decimal n).toList = some (.integer n) := by
  have hunsigned : ∀ cs, (Text.decimal n).toList = '-' :: cs → False := by
    intro cs hcs
    have hsign : '-' ∈ (Text.decimal n).toList := hcs ▸ List.mem_cons_self
    exact absurd (isDigit_of_mem_decimal hsign) (by decide)
  simp [ofNumber?, takeWhile_decimal, dropWhile_decimal, isWhole_decimal, isFractionAndExponent,
    isExponent, digitsValue_decimal]

theorem ofNumber?_neg_decimal {n : ℕ} (hn : n ≠ 0) :
    ofNumber? ('-' :: (Text.decimal n).toList) = some (.integer (-n)) := by
  obtain ⟨c, cs, hdecimal, hc⟩ := decimal_of_ne_zero hn
  have hzero : (Text.decimal n).toList ≠ ['0'] := by
    rw [hdecimal]
    rintro ⟨⟩
    exact hc rfl
  simp [ofNumber?, takeWhile_decimal, dropWhile_decimal, isWhole_decimal, isFractionAndExponent,
    isExponent, digitsValue_decimal, hzero]

theorem ofNumber?_signed (n : ℤ) : ofNumber? (Text.signed n).toList = some (.integer n) := by
  cases n with
  | ofNat n => exact ofNumber?_decimal n
  | negSucc n =>
    rw [Text.signed, String.toList_append]
    exact ofNumber?_neg_decimal n.succ_ne_zero

/-! ### Texts -/

theorem isLead_toNat (c : Char) : isLead c.toNat = false := by
  have hvalid : c.toNat < 0xD800 ∨ 0xDFFF < c.toNat ∧ c.toNat < 0x110000 := c.valid
  simp only [isLead, Bool.and_eq_false_iff, decide_eq_false_iff_not]
  omega

theorem isTrail_toNat (c : Char) : isTrail c.toNat = false := by
  have hvalid : c.toNat < 0xD800 ∨ 0xDFFF < c.toNat ∧ c.toNat < 0x110000 := c.valid
  simp only [isTrail, Bool.and_eq_false_iff, decide_eq_false_iff_not]
  omega

theorem joinUnits_toNat (cs : List Char) : joinUnits (cs.map Char.toNat) = some cs := by
  induction cs with
  | nil => rfl
  | cons c cs ih =>
    cases cs with
    | nil => simp [joinUnits, isLead_toNat, isTrail_toNat]
    | cons d ds =>
      rw [List.map_cons, List.map_cons] at *
      simp [joinUnits, isLead_toNat, isTrail_toNat, ih]

theorem ofUnits_toNat (s : String) : ofUnits (s.toList.map Char.toNat) = .string (some s) := by
  rw [ofUnits, joinUnits_toNat, Option.map_some, String.ofList_toList]

end JsonToken

/-! ## Tokens -/

section

/-! ### Folds that may fail -/

section

variable {α β : Type} {f : β → α → Option β} {b b' : β}

theorem foldlM_cons_of_some {a : α} (h : f b a = some b') (as : List α) :
    (a :: as).foldlM f b = as.foldlM f b' := by
  rw [List.foldlM_cons, h]
  rfl

theorem foldlM_append_of_some {as : List α} (h : as.foldlM f b = some b') (as' : List α) :
    (as ++ as').foldlM f b = as'.foldlM f b' := by
  rw [List.foldlM_append, h]
  rfl

end

/-! ### One character -/

namespace JsonLexer

open JsonToken

variable (read : List JsonToken) (c : Char)

theorem feed_number (taken : List Char) :
    feed ⟨read, .number taken⟩ c =
      if isNumeric c then some ⟨read, .number (c :: taken)⟩
      else (ofNumber? taken.reverse).bind fun t ↦ start (t :: read) c := rfl

theorem feed_name (taken : List Char) :
    feed ⟨read, .name taken⟩ c =
      if isLetter c then some ⟨read, .name (c :: taken)⟩
      else (ofName? taken.reverse).bind fun t ↦ start (t :: read) c := rfl

theorem feed_string (units : List ℕ) :
    feed ⟨read, .string units⟩ c =
      if c = '"' then some ⟨ofUnits units.reverse :: read, .between⟩
      else if c = '\\' then some ⟨read, .escape units⟩
      else if c.toNat < 32 then none
      else some ⟨read, .string (c.toNat :: units)⟩ := rfl

theorem feed_escape (units : List ℕ) :
    feed ⟨read, .escape units⟩ c =
      if c = 'u' then some ⟨read, .numeric units 3 0⟩
      else (escape? c).bind fun u ↦ some ⟨read, .string (u :: units)⟩ := rfl

theorem feed_numeric_succ (units : List ℕ) (left value : ℕ) :
    feed ⟨read, .numeric units (left + 1) value⟩ c =
      (Text.digitValue? c).bind fun d ↦ some ⟨read, .numeric units left (16 * value + d)⟩ := rfl

theorem feed_numeric_zero (units : List ℕ) (value : ℕ) :
    feed ⟨read, .numeric units 0 value⟩ c =
      (Text.digitValue? c).bind fun d ↦ some ⟨read, .string ((16 * value + d) :: units)⟩ := rfl

end JsonLexer

open JsonLexer (feed finish start punctuation? isNumeric isLetter feed_number feed_string
  feed_numeric_succ feed_numeric_zero)

namespace JsonToken

/-! ### Kinds of tokens -/

/-- Every token but a number whose literal is kept as it was written. -/
def Plain : JsonToken → Prop
  | decimal _ => False
  | _ => True

def IsPunctuation : JsonToken → Prop
  | beginArray | endArray | beginObject | endObject | colon | comma => True
  | _ => False

/-- The token has a last character of its own. -/
def EndsItself : JsonToken → Prop
  | string _ => True
  | t => t.IsPunctuation

/-- No character of the second token can be taken for one of the first. -/
def Apart (t u : JsonToken) : Prop := t.EndsItself ∨ u.IsPunctuation

/-- The reader after the characters of a token, when `read` are the tokens before it. -/
def opened (read : List JsonToken) : JsonToken → JsonLexer
  | null => ⟨read, .name null.chars.reverse⟩
  | bool b => ⟨read, .name (bool b).chars.reverse⟩
  | integer n => ⟨read, .number (integer n).chars.reverse⟩
  | t => ⟨t :: read, .between⟩

theorem opened_of_endsItself {t : JsonToken} (h : t.EndsItself) (read : List JsonToken) :
    t.opened read = ⟨t :: read, .between⟩ := by
  cases t with
  | null | bool | integer => exact h.elim
  | _ => rfl

theorem IsPunctuation.endsItself {t : JsonToken} (h : t.IsPunctuation) : t.EndsItself := by
  cases t with
  | string => trivial
  | _ => exact h

/-- A punctuation mark is one character, and this character is part of no number and of no name. -/
theorem IsPunctuation.exists_char {t : JsonToken} (h : t.IsPunctuation) :
    ∃ c, t.chars = [c] ∧ punctuation? c = some t ∧ isNumeric c = false ∧ isLetter c = false := by
  cases t with
  | beginArray => exact ⟨'[', rfl, rfl, rfl, rfl⟩
  | endArray => exact ⟨']', rfl, rfl, rfl, rfl⟩
  | beginObject => exact ⟨'\x7b', rfl, rfl, rfl, rfl⟩
  | endObject => exact ⟨'\x7d', rfl, rfl, rfl, rfl⟩
  | colon => exact ⟨':', rfl, rfl, rfl, rfl⟩
  | comma => exact ⟨',', rfl, rfl, rfl, rfl⟩
  | null | bool | integer | decimal | string => exact h.elim

/-! ### The end of a token -/

theorem ofName?_chars_bool (b : Bool) : ofName? (bool b).chars = some (bool b) := by
  cases b <;> rfl

theorem feed_opened {t : JsonToken} (ht : t.Plain) {c : Char} (hnumeric : isNumeric c = false)
    (hletter : isLetter c = false) (read : List JsonToken) :
    feed (t.opened read) c = start (t :: read) c := by
  cases t with
  | decimal => exact ht.elim
  | integer n =>
    simp only [opened, feed, hnumeric, List.reverse_reverse, chars, ofNumber?_signed]
    rfl
  | null =>
    simp only [opened, feed, hletter, List.reverse_reverse]
    rfl
  | bool b =>
    simp only [opened, feed, hletter, List.reverse_reverse, ofName?_chars_bool]
    rfl
  | _ => rfl

theorem finish_opened {t : JsonToken} (ht : t.Plain) (read : List JsonToken) :
    finish (t.opened read) = some (read.reverse ++ [t]) := by
  cases t with
  | decimal => exact ht.elim
  | integer n =>
    simp only [opened, finish, List.reverse_reverse, chars, ofNumber?_signed]
    simp
  | null => simp [opened, finish, chars, ofName?]
  | bool b =>
    simp only [opened, finish, List.reverse_reverse, ofName?_chars_bool]
    simp
  | _ => simp [opened, finish]

/-! ### The characters of a number -/

theorem start_upperDigit {d : ℕ} (hd : d < 10) (read : List JsonToken) :
    start read (Text.upperDigit d) = some ⟨read, .number [Text.upperDigit d]⟩ := by
  interval_cases d <;> rfl

theorem isNumeric_of_mem_decimal {n : ℕ} {c : Char} (h : c ∈ (Text.decimal n).toList) :
    isNumeric c = true := by
  simp [isNumeric, isDigit_of_mem_decimal h]

/-- The first character of an integer begins a number, and the others continue it. -/
theorem exists_signed (n : ℤ) : ∃ c cs, (Text.signed n).toList = c :: cs ∧
    (∀ read, start read c = some ⟨read, .number [c]⟩) ∧ ∀ d ∈ cs, isNumeric d = true := by
  cases n with
  | negSucc n =>
    refine ⟨'-', (Text.decimal (n + 1)).toList, ?_, fun read ↦ rfl, fun d hd ↦ ?_⟩
    · rw [Text.signed, String.toList_append]
      rfl
    · exact isNumeric_of_mem_decimal hd
  | ofNat n =>
    have hdecimal := Text.toList_decimal n
    cases hdigits : Text.digits 10 n with
    | nil =>
      have hwhole := isWhole_decimal n
      rw [hdecimal, hdigits] at hwhole
      cases hwhole
    | cons d ds =>
      rw [hdigits, List.map_cons] at hdecimal
      have hlt : d < 10 := Text.lt_of_mem_digits (by decide) (hdigits ▸ List.mem_cons_self)
      refine ⟨_, _, hdecimal, start_upperDigit hlt, fun c hc ↦ ?_⟩
      exact isNumeric_of_mem_decimal (hdecimal ▸ List.mem_cons_of_mem _ hc)

theorem foldlM_feed_number {cs : List Char} (h : ∀ c ∈ cs, isNumeric c = true)
    (read : List JsonToken) (taken : List Char) :
    cs.foldlM feed ⟨read, .number taken⟩ = some ⟨read, .number (cs.reverse ++ taken)⟩ := by
  induction cs generalizing taken with
  | nil => rfl
  | cons c cs ih =>
    obtain ⟨hc, hcs⟩ := List.forall_mem_cons.mp h
    have hfeed : feed ⟨read, .number taken⟩ c = some ⟨read, .number (c :: taken)⟩ := by
      rw [feed_number, if_pos hc]
    rw [foldlM_cons_of_some hfeed, List.reverse_cons, List.append_assoc]
    exact ih hcs (c :: taken)

/-! ### The characters of a string -/

/-- A control character is written as its code point in four digits, of which two are zero. -/
theorem foldlM_feed_control {n : ℕ} (hn : n < 32) (read : List JsonToken) (units : List ℕ) :
    ['\\', 'u', '0', '0', Text.lowerDigit (n / 16), Text.lowerDigit (n % 16)].foldlM feed
      ⟨read, .string units⟩ = some ⟨read, .string (n :: units)⟩ := by
  have hopen : ['\\', 'u', '0', '0'].foldlM feed ⟨read, .string units⟩ =
      some ⟨read, .numeric units 1 0⟩ := rfl
  have hhigh : feed ⟨read, .numeric units 1 0⟩ (Text.lowerDigit (n / 16)) =
      some ⟨read, .numeric units 0 (n / 16)⟩ := by
    rw [feed_numeric_succ, Text.digitValue?_lowerDigit (by omega), Option.bind_some,
      Nat.mul_zero, Nat.zero_add]
  have hlow : feed ⟨read, .numeric units 0 (n / 16)⟩ (Text.lowerDigit (n % 16)) =
      some ⟨read, .string (n :: units)⟩ := by
    rw [feed_numeric_zero, Text.digitValue?_lowerDigit (by omega), Option.bind_some,
      Nat.div_add_mod]
  change (['\\', 'u', '0', '0'] ++ [_, _]).foldlM feed _ = _
  rw [foldlM_append_of_some hopen, foldlM_cons_of_some hhigh, foldlM_cons_of_some hlow]
  rfl

/-- However a character is written in a string, its code point is read. -/
theorem foldlM_feed_escapedChar (c : Char) (read : List JsonToken) (units : List ℕ) :
    (escapedChar c).foldlM feed ⟨read, .string units⟩ =
      some ⟨read, .string (c.toNat :: units)⟩ := by
  -- the cases are those of the writer; the reader computes through the escapes of one letter
  rw [escapedChar]
  split_ifs with hquote hslash hline hreturn htab hback hpage hcontrol
  · rw [hquote]
    rfl
  · rw [hslash]
    rfl
  · rw [hline]
    rfl
  · rw [hreturn]
    rfl
  · rw [htab]
    rfl
  · rw [hback]
    rfl
  · rw [hpage]
    rfl
  · exact foldlM_feed_control hcontrol read units
  · have hfeed : feed ⟨read, .string units⟩ c = some ⟨read, .string (c.toNat :: units)⟩ := by
      rw [feed_string, if_neg hquote, if_neg hslash, if_neg hcontrol]
    rw [foldlM_cons_of_some hfeed]
    rfl

theorem foldlM_feed_string (cs : List Char) (read : List JsonToken) (units : List ℕ) :
    (cs.flatMap escapedChar).foldlM feed ⟨read, .string units⟩ =
      some ⟨read, .string ((cs.map Char.toNat).reverse ++ units)⟩ := by
  induction cs generalizing units with
  | nil => rfl
  | cons c cs ih =>
    rw [List.flatMap_cons, foldlM_append_of_some (foldlM_feed_escapedChar c read units),
      List.map_cons, List.reverse_cons, List.append_assoc]
    exact ih (c.toNat :: units)

/-! ### The characters of a token -/

theorem foldlM_feed_chars {t : JsonToken} (ht : t.Plain) (read : List JsonToken) :
    t.chars.foldlM feed ⟨read, .between⟩ = some (t.opened read) := by
  cases t with
  | decimal => exact ht.elim
  | integer n =>
    obtain ⟨c, cs, hchars, hstart, hnumeric⟩ := exists_signed n
    have hfeed : feed ⟨read, .between⟩ c = some ⟨read, .number [c]⟩ := hstart read
    rw [opened, chars, hchars, foldlM_cons_of_some hfeed, List.reverse_cons]
    exact foldlM_feed_number hnumeric read [c]
  | string text =>
    cases text with
    | none => rfl
    | some s =>
      have hfirst : feed ⟨read, .between⟩ '"' = some ⟨read, .string []⟩ := rfl
      have htext := foldlM_feed_string s.toList read []
      have hlast : feed ⟨read, .string ((s.toList.map Char.toNat).reverse ++ [])⟩ '"' =
          some ⟨.string (some s) :: read, .between⟩ := by
        rw [feed_string, if_pos rfl, List.append_nil, List.reverse_reverse, ofUnits_toNat]
      rw [chars, foldlM_cons_of_some hfirst, foldlM_append_of_some htext,
        foldlM_cons_of_some hlast]
      rfl
  | bool b => cases b <;> rfl
  | _ => rfl

/-! ### Lists of tokens -/

theorem foldlM_feed_next {t u : JsonToken} (ht : t.Plain) (hu : u.Plain) (h : t.Apart u)
    (read : List JsonToken) :
    u.chars.foldlM feed (t.opened read) = some (u.opened (t :: read)) := by
  rcases h with hends | hpunctuation
  · rw [opened_of_endsItself hends]
    exact foldlM_feed_chars hu (t :: read)
  · obtain ⟨c, hchars, hmark, hnumeric, hletter⟩ := hpunctuation.exists_char
    rw [hchars, List.foldlM_cons, feed_opened ht hnumeric hletter, start, hmark,
      opened_of_endsItself hpunctuation.endsItself]
    rfl

/-- The reader that holds a token reads the tokens behind it, each behind the one before. -/
theorem finish_foldlM_feed {t : JsonToken} {ts : List JsonToken} (hplain : ∀ u ∈ t :: ts, u.Plain)
    (happart : (t :: ts).IsChain Apart) (read : List JsonToken) :
    ((ts.flatMap chars).foldlM feed (t.opened read)).bind finish =
      some (read.reverse ++ t :: ts) := by
  -- the token that is held is generalized: each token is closed only by what comes after it
  induction ts generalizing t read with
  | nil => exact finish_opened (hplain t List.mem_cons_self) read
  | cons u ts ih =>
    obtain ⟨ht, hrest⟩ := List.forall_mem_cons.mp hplain
    obtain ⟨hnext, hchain⟩ := List.isChain_cons_cons.mp happart
    have hu := foldlM_feed_next ht (hrest u List.mem_cons_self) hnext read
    rw [List.flatMap_cons, foldlM_append_of_some hu, ih hrest hchain, List.reverse_cons,
      List.append_assoc, List.singleton_append]

/-- **Tokens can be read back** from their characters, written one after the other. -/
theorem ofChars?_flatMap {ts : List JsonToken} (hplain : ∀ t ∈ ts, t.Plain)
    (happart : ts.IsChain Apart) : ofChars? (ts.flatMap chars) = some ts := by
  cases ts with
  | nil => rfl
  | cons t ts =>
    have ht := foldlM_feed_chars (hplain t List.mem_cons_self) []
    rw [ofChars?, List.flatMap_cons, foldlM_append_of_some ht]
    exact finish_foldlM_feed hplain happart []

end JsonToken

end

end CalcWatch
