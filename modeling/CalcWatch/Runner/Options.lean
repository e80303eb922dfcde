import CalcWatch.Register
import CalcWatch.Text

/-!
# The command line

The arguments of the program, and the request that they amount to.

## Addresses

An address is written in decimal, or in hexadecimal behind `0x` or `0X`. What stands behind the mark
is read as a number of its own, so a plus sign belongs behind it.

## Options

The arguments are read from left to right. An option may carry its value behind an equals sign or
leave it to the next argument; an image or an option whose value has been left open stays pending,
and is settled when the next known argument begins or the line ends. An argument that nobody knows
is therefore reported before anything that is wrong with the pending one. When a pending argument is
settled, a missing value is reported before a repetition, and a repetition before a value that does
not fit. Two dashes alone make everything behind them positional.
-/

namespace CalcWatch

/-! ## Addresses -/

/-- The base of an address and the characters of its number. -/
def addressParts : List Char → Nat × List Char
  | '0' :: 'x' :: cs | '0' :: 'X' :: cs => (16, cs)
  | cs => (10, cs)

def parseAddress (s : String) : Except Text.NumberError UInt16 :=
  let (base, cs) := addressParts s.toList
  (Text.readNatural base 0xFFFF cs).map UInt16.ofNat

/-- What is wrong with a text that denotes no address. -/
def addressComplaint (s : String) (e : Text.NumberError) : String :=
  "invalid address " ++ Text.quoted s ++ ": " ++ e.message

/-! ## Options -/

/-! ### What can be asked for -/

/-- What the command line asks for. -/
structure Request where
  /-- The file of the program image. -/
  image : String
  /-- Where the image is loaded. -/
  base : UInt16 := stockResetPc
  /-- The greatest number of steps. -/
  steps : UInt32 := 1000
  /-- After how many steps the second timer is raised, again and again. -/
  timerEvery : Option UInt32 := none
  /-- The file of the machine layout. -/
  config : Option String := none
  /-- Whether every step is logged. -/
  trace : Bool := false
deriving DecidableEq, Repr

inductive Argument where
  /-- The program image, the only positional argument. -/
  | image
  /-- The load address. -/
  | base
  /-- The number of steps. -/
  | steps
  /-- The period of the timer. -/
  | timerEvery
  /-- The machine layout. -/
  | config
  /-- The log. -/
  | trace
deriving DecidableEq, Repr

namespace Argument

/-- The argument as messages name it. -/
def label : Argument → String
  | image => "<IMAGE>"
  | base => "--base <BASE>"
  | steps => "--steps <STEPS>"
  | timerEvery => "--timer-every <N>"
  | config => "--config <FILE>"
  | trace => "--trace"

/-- The argument behind a long option. -/
def ofLong? : String → Option Argument
  | "base" => some base
  | "steps" => some steps
  | "timer-every" => some timerEvery
  | "config" => some config
  | "trace" => some trace
  | _ => none

end Argument

/-- What is wrong with a command line. -/
inductive UsageError where
  /-- An argument lacks its value. -/
  | missingValue (argument : Argument)
  /-- An argument was given before. -/
  | repeated (argument : Argument)
  /-- A value does not fit its argument. -/
  | invalidValue (argument : Argument) (value reason : String)
  /-- Nobody knows the argument. -/
  | unexpectedArgument (text : String)
  /-- An option that takes no value was given one. -/
  | unexpectedValue (option value : String)
  /-- The image was not given. -/
  | missingImage
deriving DecidableEq, Repr

/-- The error in words. What was typed is shown without its controls. -/
def UsageError.message : UsageError → String
  | missingValue a => "a value is required for '" ++ a.label ++ "' but none was supplied"
  | repeated a => "the argument '" ++ a.label ++ "' cannot be used multiple times"
  | invalidValue a value reason =>
    "invalid value '" ++ Text.shown value ++ "' for '" ++ a.label ++ "': " ++ reason
  | unexpectedArgument text => "unexpected argument '" ++ Text.shown text ++ "' found"
  | unexpectedValue option value =>
    "unexpected value '" ++ Text.shown value ++ "' for '" ++ option
      ++ "' found; no more were expected"
  | missingImage => "the following required arguments were not provided:"

/-- Why a command line asks for no run. -/
inductive Refusal where
  /-- It asks for help. -/
  | help
  /-- It asks for the version. -/
  | version
  /-- Something is wrong with it. -/
  | wrong (error : UsageError)
deriving DecidableEq, Repr

/-! ### Values -/

/-- A count of steps: any number that fits thirty-two bits. A number is first read with sixty-four,
so one that is out of range can be shown. -/
def parseCount (s : String) : Except String UInt32 :=
  match Text.readInteger 0x8000000000000000 0x7FFFFFFFFFFFFFFF s.toList with
  | .error e => .error e.message
  | .ok n =>
    if 0 ≤ n ∧ n ≤ 0xFFFFFFFF then .ok (UInt32.ofNat n.toNat)
    else .error (Text.signed n ++ " is not in 0..=4294967295")

/-- What has been asked for so far; the image may still be missing. -/
structure Draft where
  /-- The request, with an empty image as long as none was given. -/
  request : Request := { image := "" }
  /-- The arguments that were given. -/
  given : List Argument := []

namespace Draft

/-- Reads a value for an argument. -/
def withValue (request : Request) (argument : Argument) (value : String) :
    Except UsageError Request :=
  let invalid (reason : String) : UsageError := .invalidValue argument value reason
  match argument with
  | .image =>
    if value = "" then .error (.missingValue .image) else .ok { request with image := value }
  | .config =>
    if value = "" then .error (.missingValue .config)
    else .ok { request with config := some value }
  | .base =>
    match parseAddress value with
    | .ok a => .ok { request with base := a }
    | .error e => .error (invalid (addressComplaint value e))
  | .steps =>
    match parseCount value with
    | .ok n => .ok { request with steps := n }
    | .error reason => .error (invalid reason)
  | .timerEvery =>
    match parseCount value with
    | .ok n => .ok { request with timerEvery := some n }
    | .error reason => .error (invalid reason)
  | .trace => .ok { request with trace := true }

/-- Takes an argument with its value. -/
def give (draft : Draft) (argument : Argument) (value : Option String) :
    Except UsageError Draft := do
  match value with
  | none => .error (.missingValue argument)
  | some value =>
    if argument ∈ draft.given then .error (.repeated argument)
    else
      let request ← withValue draft.request argument value
      pure { request, given := argument :: draft.given }

end Draft

/-! ### Reading the line -/

structure OptionScanner where
  /-- What has been settled. -/
  draft : Draft := {}
  /-- The argument that is not settled yet, with its value once that is known. -/
  pending : Option (Argument × Option String) := none
  /-- Whether the image was met. -/
  imageMet : Bool := false
  /-- Whether two dashes alone were met. -/
  positionalOnly : Bool := false

namespace OptionScanner

/-- Settles the pending argument. -/
def settle (scanner : OptionScanner) : Except Refusal OptionScanner :=
  match scanner.pending with
  | none => .ok scanner
  | some (argument, value) =>
    match scanner.draft.give argument value with
    | .ok draft => .ok { scanner with draft, pending := none }
    | .error e => .error (.wrong e)

/-- Settles the pending argument and makes another one pending. -/
def await (scanner : OptionScanner) (argument : Argument) (value : Option String) :
    Except Refusal OptionScanner := do
  let scanner ← scanner.settle
  pure { scanner with pending := some (argument, value) }

/-- Settles the pending argument, and then another one at once. -/
def take (scanner : OptionScanner) (argument : Argument) (value : String) :
    Except Refusal OptionScanner := do
  let scanner ← scanner.await argument (some value)
  scanner.settle

/-- Settles the pending argument, and then refuses. -/
def refuse (scanner : OptionScanner) (refusal : Refusal) : Except Refusal OptionScanner := do
  let _ ← scanner.settle
  throw refusal

def takePositional (scanner : OptionScanner) (text : String) : Except Refusal OptionScanner :=
  if scanner.imageMet then .error (.wrong (.unexpectedArgument text))
  else do
    let scanner ← scanner.await .image (some text)
    pure { scanner with imageMet := true }

/-- Takes an argument without dashes: the value that an option waits for, or the image. -/
def takePlain (scanner : OptionScanner) (text : String) : Except Refusal OptionScanner :=
  match scanner.pending with
  | some (argument, none) => .ok { scanner with pending := some (argument, some text) }
  | _ => scanner.takePositional text

/-- Takes a long option with the value behind its equals sign. -/
def takeLong (scanner : OptionScanner) (name : String) (value : Option String) :
    Except Refusal OptionScanner :=
  let bare (take : Except Refusal OptionScanner) : Except Refusal OptionScanner :=
    match value with
    | none => take
    | some value => .error (.wrong (.unexpectedValue ("--" ++ name) value))
  match name, Argument.ofLong? name with
  | "help", _ => bare (scanner.refuse .help)
  | "version", _ => bare (scanner.refuse .version)
  | _, some .trace => bare (scanner.take .trace "")
  | _, some argument =>
    match value with
    | some value => scanner.take argument value
    | none => scanner.await argument none
  | _, none => .error (.wrong (.unexpectedArgument ("--" ++ name)))

def takeShort (scanner : OptionScanner) (letter : Char) : Except Refusal OptionScanner :=
  match letter with
  | 'h' => scanner.refuse .help
  | 'V' => scanner.refuse .version
  | c => .error (.wrong (.unexpectedArgument (String.ofList ['-', c])))

/-- The name of a long option, and the value behind the first equals sign. -/
def longParts (cs : List Char) : String × Option String :=
  match cs.dropWhile (· ≠ '=') with
  | [] => (String.ofList cs, none)
  | _ :: value => (String.ofList (cs.takeWhile (· ≠ '=')), some (String.ofList value))

def feed (scanner : OptionScanner) (text : String) : Except Refusal OptionScanner :=
  if scanner.positionalOnly then scanner.takePositional text
  else
    match text.toList with
    | ['-', '-'] => .ok { scanner with positionalOnly := true }
    | '-' :: '-' :: cs => scanner.takeLong (longParts cs).1 (longParts cs).2
    | '-' :: c :: _ => scanner.takeShort c
    | _ => scanner.takePlain text

/-- The request of a line that ends here. -/
def finish (scanner : OptionScanner) : Except Refusal Request := do
  let scanner ← scanner.settle
  if .image ∈ scanner.draft.given then pure scanner.draft.request
  else throw (.wrong .missingImage)

end OptionScanner

def Request.parse (arguments : List String) : Except Refusal Request := do
  let scanner ← arguments.foldlM OptionScanner.feed {}
  scanner.finish

end CalcWatch
