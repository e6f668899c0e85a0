import GrammarText.CommandLine.Run

/-!
# The program

Reads the file that the arguments name and the threshold that the environment asks for, and writes what `run` makes of
them to the standard streams.  The environment asks for a threshold in the variable `RUST_LOG`; if that is not set, or is
of a kind that `Threshold.ofSetting?` leaves out, the arguments decide.
-/

namespace GrammarText.CommandLine

/-- The number of a system error, which some calls hand over negated. -/
def errorNumber (code : UInt32) : Nat :=
  if code.toNat < 0x80000000 then code.toNat else 0x100000000 - code.toNat

/-- A system error as a reason why a file cannot be read. -/
def refusalOf : IO.Error → ReadFailure
  | .noFileOrDirectory .. => .missing
  | .noSuchThing .. => .missing
  | .inappropriateType _ code words =>
    match errorNumber code with
    | 20 => .notDirectory
    | 21 => .isDirectory
    | n => .refused n words
  | .permissionDenied _ code _ => .refused (errorNumber code) "Permission denied"
  | e => .refused 0 (toString e)

/-- The bytes of the file at a path. -/
def fetch (path : String) : IO (Except ReadFailure ByteArray) := do
  try
    return .ok (← IO.FS.readBinFile path)
  catch e =>
    return .error (refusalOf e)

end GrammarText.CommandLine

open GrammarText GrammarText.CommandLine in
/-- Runs the program on its arguments. -/
def main (arguments : List String) : IO UInt32 := do
  let threshold := (← IO.getEnv "RUST_LOG").bind Threshold.ofSetting?
  let contents ← match Request.ofArguments? arguments with
    | some (.invoke i) => fetch i.path
    | _ => pure (.error .missing)
  let outcome := run ⟨threshold, fun _ => contents⟩ arguments
  (← IO.getStderr).putStr outcome.errors
  (← IO.getStdout).putStr outcome.output
  return UInt32.ofNat outcome.status
