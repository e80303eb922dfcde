import CalcWatch.Text

/-!
# JSON

A type that can be stored has a JSON form, which goes through the values that JSON text can denote.
Text and values are two steps apart, with tokens between them. Both readers are folds: one takes a
character at a time, the other a token.

## Values

The values that JSON text can denote, with two refinements that readers of stored machines need. A
number written without fraction and exponent is an integer, and every other number keeps only the
way it was written, because no field of a machine accepts one. A string literal may escape half of a
surrogate pair; such a literal is well formed but denotes no text, and it is carried as `none` so
that it can still be skipped where its value does not matter.

## Forms

A type that can be stored has a JSON form: a value for everything that may be written, and a reader
that takes that value back and refuses what does not fit. Readers are a little wider than writers. A
structure is written as named fields but also read from the bare list of its fields in their order;
names it does not know are skipped, and a name it knows must not occur twice. A choice is written as
its name but also read with an explicit null beside the name.

## Tokens

JSON text is a sequence of brackets, commas, colons, names, numbers and strings. The text is read by
a machine that takes one character at a time and keeps what it has read of the current token, so
reading is a fold over the characters and needs no look-ahead: a number or a name ends when a
character arrives that cannot belong to it, and that character then starts the next token.

## From tokens to values

Values are written as tokens and read from tokens. Reading keeps the arrays and objects that are
still open on a stack and takes one token at a time; what may come next is the reader's phase. A
text is accepted exactly when the value is complete after its last token.
-/

namespace CalcWatch

/-! ## Values -/

inductive Json where
  /-- The null value. -/
  | null
  /-- A truth value. -/
  | bool (value : Bool)
  /-- A number written as an integer. -/
  | integer (value : Int)
  /-- A number written with a fraction or an exponent, or as minus zero. -/
  | decimal (literal : String)
  /-- A string, if the literal denotes a text. -/
  | string (text : Option String)
  /-- A list of values. -/
  | array (items : List Json)
  /-- Named values in the order they were written; a name may occur twice. -/
  | object (members : List (Option String × Json))
deriving Inhabited, Repr

namespace Json

def text (s : String) : Json := .string (some s)

def natural (n : Nat) : Json := .integer n

/-- Named values. -/
def record (fields : List (String × Json)) : Json :=
  .object (fields.map fun field ↦ (some field.1, field.2))

end Json

/-! ## Forms -/

/-- A type with a JSON form. -/
class JsonForm (α : Type) where
  /-- The value that is written. -/
  encode : α → Json
  /-- The value that is read, if the form fits. -/
  decode? : Json → Option α

namespace Json

open JsonForm (encode decode?)

variable {α : Type}

/-! ### Numbers, truth values and texts -/

/-- A number between two bounds, both included. -/
def integerIn? (low high : Int) : Json → Option Int
  | .integer n => if low ≤ n ∧ n ≤ high then some n else none
  | _ => none

instance : JsonForm UInt8 where
  encode n := natural n.toNat
  decode? j := (integerIn? 0 0xFF j).map fun n ↦ UInt8.ofNat n.toNat

instance : JsonForm UInt16 where
  encode n := natural n.toNat
  decode? j := (integerIn? 0 0xFFFF j).map fun n ↦ UInt16.ofNat n.toNat

instance : JsonForm UInt32 where
  encode n := natural n.toNat
  decode? j := (integerIn? 0 0xFFFFFFFF j).map fun n ↦ UInt32.ofNat n.toNat

instance : JsonForm Int32 where
  encode n := .integer n.toInt
  decode? j := (integerIn? (-0x80000000) 0x7FFFFFFF j).map Int32.ofInt

instance : JsonForm Bool where
  encode := .bool
  decode?
    | .bool b => some b
    | _ => none

instance : JsonForm String where
  encode := text
  decode?
    | .string s => s
    | _ => none

/-! ### Lists and vectors -/

instance [JsonForm α] : JsonForm (List α) where
  encode items := .array (items.map encode)
  decode?
    | .array items => items.mapM decode?
    | _ => none

instance {n : Nat} [JsonForm α] : JsonForm (Vector α n) where
  encode items := encode items.toList
  decode? j := do
    let items ← (decode? j : Option (List α))
    if h : items.length = n then some ⟨items.toArray, by simpa using h⟩ else none

/-! ### Structures -/

/-- The value of the member with a name, where that name occurs at most once. -/
def member? (name : String) (members : List (Option String × Json)) : Option (Option Json) :=
  match members.filter (·.1 == some name) with
  | [] => some none
  | [member] => some (some member.2)
  | _ => none

/-- The values of the named fields of a structure, `none` for a field that is absent. A list has its
fields in order, and those absent are at its end. -/
def fields? (names : List String) : Json → Option (List (Option Json))
  | .array items =>
    if items.length ≤ names.length then some ((List.range names.length).map (items[·]?)) else none
  | .object members =>
    if members.all (·.1.isSome) then names.mapM (member? · members) else none
  | _ => none

/-- A field that has to be there. -/
def required [JsonForm α] (field : Option Json) : Option α := field.bind decode?

/-- A field with a value for when it is absent. -/
def defaulted [JsonForm α] (absent : α) : Option Json → Option α
  | some j => decode? j
  | none => some absent

/-! ### Choices -/

/-- The choice with a name, from its name alone or from its name beside a null. -/
def choice? (choices : List α) (name : α → String) : Json → Option α
  | .string (some s) | .object [(some s, .null)] => choices.find? (name · == s)
  | _ => none

end Json

/-! ## Tokens -/

inductive JsonToken where
  | beginArray | endArray | beginObject | endObject | colon | comma
  | null
  | bool (value : Bool)
  | integer (value : Int)
  | decimal (literal : String)
  | string (text : Option String)
deriving DecidableEq, Repr

namespace JsonToken

/-! ### Writing -/

/-- One character of a string as it stands between the quotes. -/
def escapedChar (c : Char) : List Char :=
  if c = '"' then ['\\', '"']
  else if c = '\\' then ['\\', '\\']
  else if c = '\n' then ['\\', 'n']
  else if c = '\r' then ['\\', 'r']
  else if c = '\t' then ['\\', 't']
  else if c.toNat = 8 then ['\\', 'b']
  else if c.toNat = 12 then ['\\', 'f']
  else if c.toNat < 32 then
    ['\\', 'u', '0', '0', Text.lowerDigit (c.toNat / 16), Text.lowerDigit (c.toNat % 16)]
  else [c]

/-- The characters of a token. A string without a text is written as half of a surrogate pair. -/
def chars : JsonToken → List Char
  | beginArray => ['['] | endArray => [']']
  | beginObject => ['\x7b'] | endObject => ['\x7d']
  | colon => [':'] | comma => [',']
  | null => ['n', 'u', 'l', 'l']
  | bool true => ['t', 'r', 'u', 'e']
  | bool false => ['f', 'a', 'l', 's', 'e']
  | integer n => (Text.signed n).toList
  | decimal literal => literal.toList
  | string (some s) => '"' :: (s.toList.flatMap escapedChar ++ ['"'])
  | string none => ['"', '\\', 'u', 'd', '8', '0', '0', '"']

/-! ### Numbers and names -/

def isDigit (c : Char) : Bool := 48 ≤ c.toNat && c.toNat < 58

/-- The number a list of decimal digits stands for, most significant digit first. -/
def digitsValue (ds : List Char) : Nat := ds.foldl (fun n c ↦ 10 * n + (c.toNat - 48)) 0

/-- Digits of a whole part: one zero alone, or digits that do not begin with a zero. -/
def isWhole : List Char → Bool
  | [] => false
  | [c] => isDigit c
  | c :: cs => isDigit c && c != '0' && cs.all isDigit

/-- An exponent, or nothing. -/
def isExponent : List Char → Bool
  | [] => true
  | e :: cs =>
    let ds := match cs with
      | '+' :: ds => ds
      | '-' :: ds => ds
      | ds => ds
    (e == 'e' || e == 'E') && !ds.isEmpty && ds.all isDigit

/-- A fraction, an exponent, both, or nothing. -/
def isFractionAndExponent : List Char → Bool
  | '.' :: cs => !(cs.takeWhile isDigit).isEmpty && isExponent (cs.dropWhile isDigit)
  | cs => isExponent cs

/-- The number token written by these characters. -/
def ofNumber? (cs : List Char) : Option JsonToken :=
  let (negative, magnitude) := match cs with
    | '-' :: rest => (true, rest)
    | rest => (false, rest)
  let whole := magnitude.takeWhile isDigit
  let rest := magnitude.dropWhile isDigit
  if !isWhole whole || !isFractionAndExponent rest then none
  else if !rest.isEmpty || (negative && whole == ['0']) then some (.decimal (String.ofList cs))
  else
    let value : Int := digitsValue whole
    some (.integer (if negative then -value else value))

/-- The token named by these letters. -/
def ofName? (cs : List Char) : Option JsonToken :=
  if cs = ['n', 'u', 'l', 'l'] then some .null
  else if cs = ['t', 'r', 'u', 'e'] then some (.bool true)
  else if cs = ['f', 'a', 'l', 's', 'e'] then some (.bool false)
  else none

/-! ### Strings

A string is read as a list of code units: the code points of plain characters, and the numbers given
by escapes. Only at the closing quote are surrogate pairs joined. -/

/-- The first half of a surrogate pair. -/
def isLead (u : Nat) : Bool := 0xD800 ≤ u && u < 0xDC00

/-- The second half of a surrogate pair. -/
def isTrail (u : Nat) : Bool := 0xDC00 ≤ u && u < 0xE000

/-- The text of a list of code units, unless half of a surrogate pair is left over. -/
def joinUnits : List Nat → Option (List Char)
  | [] => some []
  | [u] => if isLead u || isTrail u then none else some [Char.ofNat u]
  | u :: v :: rest =>
    if isLead u && isTrail v then
      (joinUnits rest).map (Char.ofNat (0x10000 + (u - 0xD800) * 0x400 + (v - 0xDC00)) :: ·)
    else if isLead u || isTrail u then none
    else (joinUnits (v :: rest)).map (Char.ofNat u :: ·)

/-- The code point a one-letter escape stands for. -/
def escape? (c : Char) : Option Nat :=
  if c = '"' then some 34 else if c = '\\' then some 92 else if c = '/' then some 47
  else if c = 'b' then some 8 else if c = 'f' then some 12 else if c = 'n' then some 10
  else if c = 'r' then some 13 else if c = 't' then some 9 else none

/-- The string token with these code units. -/
def ofUnits (units : List Nat) : JsonToken := .string ((joinUnits units).map String.ofList)

end JsonToken

/-! ### Reading -/

/-- What has been read of the current token, last character first. -/
inductive JsonLexer.Mode where
  /-- Between tokens. -/
  | between
  /-- In a number. -/
  | number (read : List Char)
  /-- In a name. -/
  | name (read : List Char)
  /-- In a string. -/
  | string (units : List Nat)
  /-- After a backslash in a string. -/
  | escape (units : List Nat)
  /-- In a numeric escape with this many digits to come after the next one. -/
  | numeric (units : List Nat) (left value : Nat)
deriving DecidableEq, Repr

structure JsonLexer where
  /-- The tokens that are complete, last first. -/
  tokens : List JsonToken := []
  /-- The token being read. -/
  mode : JsonLexer.Mode := .between
deriving DecidableEq, Repr

namespace JsonLexer

open JsonToken

def isBlank (c : Char) : Bool := c == ' ' || c == '\t' || c == '\n' || c == '\r'

/-- A character that may belong to a number. -/
def isNumeric (c : Char) : Bool :=
  isDigit c || c == '-' || c == '+' || c == '.' || c == 'e' || c == 'E'

def isLetter (c : Char) : Bool :=
  (65 ≤ c.toNat && c.toNat < 91) || (97 ≤ c.toNat && c.toNat < 123)

/-- The token that consists of one character. -/
def punctuation? (c : Char) : Option JsonToken :=
  if c = '[' then some .beginArray else if c = ']' then some .endArray
  else if c = '\x7b' then some .beginObject else if c = '\x7d' then some .endObject
  else if c = ':' then some .colon else if c = ',' then some .comma else none

/-- Takes a character that stands between tokens. -/
def start (tokens : List JsonToken) (c : Char) : Option JsonLexer :=
  match punctuation? c with
  | some t => some ⟨t :: tokens, .between⟩
  | none =>
    if isBlank c then some ⟨tokens, .between⟩
    else if c = '"' then some ⟨tokens, .string []⟩
    else if isDigit c || c == '-' then some ⟨tokens, .number [c]⟩
    else if isLetter c then some ⟨tokens, .name [c]⟩
    else none

def feed (lexer : JsonLexer) (c : Char) : Option JsonLexer :=
  match lexer.mode with
  | .between => start lexer.tokens c
  | .number read =>
    if isNumeric c then some ⟨lexer.tokens, .number (c :: read)⟩
    else do start ((← ofNumber? read.reverse) :: lexer.tokens) c
  | .name read =>
    if isLetter c then some ⟨lexer.tokens, .name (c :: read)⟩
    else do start ((← ofName? read.reverse) :: lexer.tokens) c
  | .string units =>
    if c = '"' then some ⟨ofUnits units.reverse :: lexer.tokens, .between⟩
    else if c = '\\' then some ⟨lexer.tokens, .escape units⟩
    else if c.toNat < 32 then none
    else some ⟨lexer.tokens, .string (c.toNat :: units)⟩
  | .escape units =>
    if c = 'u' then some ⟨lexer.tokens, .numeric units 3 0⟩
    else do pure ⟨lexer.tokens, .string ((← escape? c) :: units)⟩
  | .numeric units left value => do
    let value := 16 * value + (← Text.digitValue? c)
    match left with
    | 0 => pure ⟨lexer.tokens, .string (value :: units)⟩
    | left + 1 => pure ⟨lexer.tokens, .numeric units left value⟩

/-- The tokens of a text that ends here. -/
def finish (lexer : JsonLexer) : Option (List JsonToken) :=
  match lexer.mode with
  | .between => some lexer.tokens.reverse
  | .number read => do pure ((← ofNumber? read.reverse) :: lexer.tokens).reverse
  | .name read => do pure ((← ofName? read.reverse) :: lexer.tokens).reverse
  | .string _ | .escape _ | .numeric _ _ _ => none

end JsonLexer

def JsonToken.ofChars? (cs : List Char) : Option (List JsonToken) :=
  (cs.foldlM JsonLexer.feed {}).bind JsonLexer.finish

/-! ## From tokens to values -/

namespace Json

/-! ### Writing -/

mutual

def tokens : Json → List JsonToken
  | .null => [.null]
  | .bool b => [.bool b]
  | .integer n => [.integer n]
  | .decimal literal => [.decimal literal]
  | .string text => [.string text]
  | .array [] => [.beginArray, .endArray]
  | .array (item :: items) => .beginArray :: (tokens item ++ itemTokens items)
  | .object [] => [.beginObject, .endObject]
  | .object ((key, value) :: members) =>
    .beginObject :: .string key :: .colon :: (tokens value ++ memberTokens members)

/-- The tokens of the items after the first, and of the end of the array. -/
def itemTokens : List Json → List JsonToken
  | [] => [.endArray]
  | item :: items => .comma :: (tokens item ++ itemTokens items)

/-- The tokens of the members after the first, and of the end of the object. -/
def memberTokens : List (Option String × Json) → List JsonToken
  | [] => [.endObject]
  | (key, value) :: members =>
    .comma :: .string key :: .colon :: (tokens value ++ memberTokens members)

end

/-- The characters of a value, nothing between the tokens. -/
def chars (value : Json) : List Char := value.tokens.flatMap JsonToken.chars

def render (value : Json) : String := String.ofList value.chars

end Json

/-! ### Reading -/

namespace JsonReader

/-- An array or object that is still open, its parts last first. -/
inductive Frame where
  /-- An array. -/
  | array (items : List Json)
  /-- An object between two members. -/
  | object (members : List (Option String × Json))
  /-- An object whose member `key` is being read. -/
  | member (members : List (Option String × Json)) (key : Option String)

/-- What may come next. -/
inductive Phase where
  /-- A value. -/
  | value
  /-- A value, or the end of the array just begun. -/
  | item
  /-- A key, or the end of the object just begun. -/
  | member
  /-- A key. -/
  | key
  /-- A colon. -/
  | colon
  /-- A comma, or the end of what is open. -/
  | separator
  /-- Nothing: this is the value. -/
  | done (value : Json)

/-- The stack of what is open, innermost first, and the phase. -/
structure State where
  /-- What is open. -/
  frames : List Frame := []
  /-- What may come next. -/
  phase : Phase := .value

/-- Puts a complete value where it belongs. -/
def deliver (value : Json) : List Frame → Option State
  | [] => some ⟨[], .done value⟩
  | .array items :: rest => some ⟨.array (value :: items) :: rest, .separator⟩
  | .member members key :: rest => some ⟨.object ((key, value) :: members) :: rest, .separator⟩
  | .object _ :: _ => none

/-- Takes a token where a value begins. -/
def beginValue (frames : List Frame) : JsonToken → Option State
  | .null => deliver .null frames
  | .bool b => deliver (.bool b) frames
  | .integer n => deliver (.integer n) frames
  | .decimal literal => deliver (.decimal literal) frames
  | .string text => deliver (.string text) frames
  | .beginArray => some ⟨.array [] :: frames, .item⟩
  | .beginObject => some ⟨.object [] :: frames, .member⟩
  | .endArray | .endObject | .colon | .comma => none

def take (state : State) (token : JsonToken) : Option State :=
  match state.phase, token, state.frames with
  | .value, token, frames => beginValue frames token
  | .item, .endArray, .array items :: rest => deliver (.array items.reverse) rest
  | .item, token, frames => beginValue frames token
  | .member, .endObject, .object members :: rest => deliver (.object members.reverse) rest
  | .member, .string key, .object members :: rest => some ⟨.member members key :: rest, .colon⟩
  | .key, .string key, .object members :: rest => some ⟨.member members key :: rest, .colon⟩
  | .colon, .colon, frames => some ⟨frames, .value⟩
  | .separator, .comma, .array items :: rest => some ⟨.array items :: rest, .value⟩
  | .separator, .comma, .object members :: rest => some ⟨.object members :: rest, .key⟩
  | .separator, .endArray, .array items :: rest => deliver (.array items.reverse) rest
  | .separator, .endObject, .object members :: rest => deliver (.object members.reverse) rest
  | _, _, _ => none

end JsonReader

namespace Json

def ofTokens? (tokens : List JsonToken) : Option Json := do
  match (← tokens.foldlM JsonReader.take {}).phase with
  | .done value => some value
  | _ => none

def ofChars? (cs : List Char) : Option Json := do ofTokens? (← JsonToken.ofChars? cs)

/-- The value that a text denotes. -/
def parse? (s : String) : Option Json := ofChars? s.toList

end Json

end CalcWatch
