import CalcWatch.Json.Layout
import CalcWatch.Runner.FileTree
import CalcWatch.Runner.Options
import CalcWatch.Runner.TimedRun

/-!
# Sessions

A session takes a command line to what is printed and to the exit status.

## The summary of a run

Five lines: how many steps were taken, the control registers, the current bank digit by digit, and
what each of the two ports has received.

## The session

Files are read through a function that the caller supplies, in whatever monad the caller works in,
so the same session runs against a file system and against a table of contents. The layout is read
before the image, and whatever fails first ends the session.
-/

namespace CalcWatch

/-! ## The summary of a run -/

namespace Machine

def controlLine (control : Control) : String :=
  "PC=" ++ Text.address control.pc.toNat ++ " SP=" ++ Text.address control.sp.toNat
    ++ " SA=" ++ Text.address control.sa.toNat ++ " F=0x" ++ Text.hex 2 control.flags.toNat
    ++ " CB=" ++ Text.decimal control.currentBank.number.toNat
    ++ " AB=" ++ Text.decimal control.additionalBank.number.toNat

/-- The character of a cell that holds a digit. -/
def cellChar? (cell : UInt8) : Option Char :=
  if cell < 16 then some (Text.upperDigit cell.toNat) else none

/-- The current bank, one character for every cell that holds a digit. -/
def bankLine (m : Machine) : String :=
  let bank := m.bank .current
  "bank " ++ String.singleton bank.letter ++ ": "
    ++ String.ofList ((m.registers.cells bank).filterMap cellChar?)

/-- What a port has received, byte by byte. -/
def portLine (m : Machine) (port : UInt32) : String :=
  let bytes := (m.ports.captured? port).getD []
  "port " ++ Text.decimal port.toNat ++ ": "
    ++ " ".intercalate (bytes.map fun b ↦ Text.hex 2 b.toNat)

def summary (m : Machine) (steps : Nat) : List String :=
  ["steps: " ++ Text.decimal steps, controlLine m.control, m.bankLine, m.portLine addressPort,
    m.portLine dataPort]

end Machine

/-! ## The session -/

/-- What a session prints, and how it ends. -/
structure Transcript where
  /-- The exit status. -/
  exit : UInt8 := 0
  /-- The lines on the standard output. -/
  output : List String := []
  /-- The lines on the error output. -/
  errors : List String := []
deriving DecidableEq, Repr

/-- What went wrong once the command line was understood. -/
structure Failure where
  /-- What was being done. -/
  context : String
  /-- Why it failed, where there is more to say. -/
  cause : Option String := none
deriving DecidableEq, Repr

namespace Failure

/-- The lines in which a failure is reported. -/
def lines (failure : Failure) : List String :=
  Text.lines ("Error: " ++ failure.context) ++
    match failure.cause with
    | some cause => ["", "Caused by:", "    " ++ cause]
    | none => []

def reading (what file cause : String) : Failure := ⟨"reading " ++ what ++ " " ++ file, some cause⟩

def loading (base : UInt16) (fault : Fault) : Failure :=
  ⟨"loading image at " ++ Text.address base.toNat, some fault.message⟩

def stepping (failure : StepFailure) : Failure :=
  ⟨"step " ++ Text.decimal failure.step ++ " at PC " ++ Text.address failure.pc.toNat,
    some failure.fault.message⟩

end Failure

/-! ### The parts of a session -/

/-- The layout in the contents of a file. Contents that are no text could not be read; a text that
is no layout could not be understood, and that is all there is to say. -/
def MachineLayout.ofFile (file : String) (contents : List UInt8) : Except Failure MachineLayout :=
  match String.fromUTF8? ⟨contents.toArray⟩ with
  | none => .error (.reading "config" file "stream did not contain valid UTF-8")
  | some s =>
    match (Json.parse? s).bind JsonForm.decode? with
    | some layout => .ok layout
    | none => .error ⟨"parsing config " ++ file, none⟩

def runImage (request : Request) (layout : MachineLayout) (image : List UInt8) : Transcript :=
  let built := Machine.ofLayout layout
  let logged (events : List Event) : List String :=
    if request.trace then events.map Event.line else []
  match Machine.loadImage request.base image built with
  | .error fault _ =>
    { exit := 1, errors := logged built.buildReports ++ (Failure.loading request.base fault).lines }
  | .ok _ m =>
    let steps := request.steps.toNat
    let log := logged <|
      m.buildReports
        ++ [.loaded m.memory.name image.length request.base.toUInt32,
          .started image.length request.base request.steps]
        ++ if request.trace then m.runReports request.timerEvery steps else []
    match m.runTimed request.timerEvery steps with
    | (none, m) => { output := m.summary steps, errors := log }
    | (some failure, _) => { exit := 1, errors := log ++ (Failure.stepping failure).lines }

/-! ### Sessions -/

def versionLine : String := "nibble-run 0.1.0"

def helpLines : List String :=
  ["Runs a raw program image on the emulated watch CPU", "",
    "Usage: nibble-run [OPTIONS] <IMAGE>", "",
    "Arguments:",
    "  <IMAGE>  Raw program image, big-endian 16-bit words", "",
    "Options:",
    "      --base <BASE>      Load address of the image (decimal or 0x hex) [default: 6144]",
    "      --steps <STEPS>    Maximum number of instructions to execute [default: 1000]",
    "      --timer-every <N>  Raise SECOND_TIMER after every N executed steps",
    "      --config <FILE>    JSON machine configuration replacing the stock layout",
    "      --trace            Log every executed instruction",
    "  -h, --help             Print help",
    "  -V, --version          Print version"]

/-- The transcript of a command line that asks for no run. Of a message only the first line is
kept. -/
def Refusal.transcript : Refusal → Transcript
  | help => { output := helpLines }
  | version => { output := [versionLine] }
  | wrong e => { exit := 2, errors := (Text.lines ("error: " ++ e.message)).take 1 }

section

variable {M : Type → Type} [Monad M]
  (readFile : String → M (Except FileProblem (List UInt8)))

def loadLayout (request : Request) : ExceptT Failure M MachineLayout := do
  match request.config with
  | none => pure {}
  | some file =>
    match ← readFile file with
    | .ok contents => MachineLayout.ofFile file contents
    | .error problem => throw (.reading "config" file problem.message)

def loadImageFile (request : Request) : ExceptT Failure M (List UInt8) := do
  match ← readFile request.image with
  | .ok contents => pure contents
  | .error problem => throw (.reading "image" request.image problem.message)

/-- The session of a command line. -/
def session (arguments : List String) : M Transcript := do
  match Request.parse arguments with
  | .error refusal => pure refusal.transcript
  | .ok request =>
    let loaded ← ExceptT.run do
      let layout ← loadLayout readFile request
      let image ← loadImageFile readFile request
      pure (runImage request layout image)
    match loaded with
    | .ok transcript => pure transcript
    | .error failure => pure { exit := 1, errors := failure.lines }

end

end CalcWatch
