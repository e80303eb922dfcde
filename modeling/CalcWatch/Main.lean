import CalcWatch.Runner.Session

/-!
# The program

Reads files, prints the transcript of the session, and exits with its status.
-/

namespace CalcWatch

/-- A number that the system reported, which some of its parts report with the sign changed. -/
def systemNumber (code : UInt32) : Nat := code.toInt32.toInt.natAbs

def readContents (file : String) : IO (Except FileProblem (List UInt8)) := do
  try
    let contents ← IO.FS.readBinFile file
    pure (.ok contents.toList)
  catch
    | .noFileOrDirectory _ code words | .permissionDenied _ code words
    | .inappropriateType _ code words | .invalidArgument _ code words =>
      pure (.error (.ofNumber (systemNumber code) words))
    | e => pure (.error (.other 0 (toString e)))

end CalcWatch

open CalcWatch in
def main (arguments : List String) : IO UInt32 := do
  let transcript ← session readContents arguments
  for line in transcript.errors do
    IO.eprintln line
  for line in transcript.output do
    IO.println line
  pure transcript.exit.toUInt32
