import DiceNotation.CommandLine
/-!
# The program

Reads the arguments, reads the file of commands if one is named, rolls with
a generator seeded from the clock, prints the report and ends with the
status of the run.
-/

open DiceNotation

/-- The text the system gives for an error number. -/
def errorText (code : UInt32) : String :=
  match code.toNat with
  | 2 => "No such file or directory"
  | 13 => "Permission denied"
  | 20 => "Not a directory"
  | 21 => "Is a directory"
  | 36 => "File name too long"
  | n => "Unknown error " ++ toString n

/-- Reads a file of commands, naming a failure by the system's error number. -/
def readCommands (path : String) : IO (Except Files.FileFault String) := do
  try
    return .ok (← IO.FS.readFile path)
  catch e =>
    let fault (code : UInt32) : Files.FileFault := ⟨code.toNat, errorText code⟩
    return .error (match e with
      | .noFileOrDirectory _ code _ => fault code
      | .permissionDenied _ code _ => fault code
      | .inappropriateType _ code _ => fault code
      | .invalidArgument _ code _ => fault code
      | .otherError code _ => fault code
      | _ => Files.FileFault.missing)

def main (args : List String) : IO UInt32 := do
  let file ← match CommandLine.parse {} args with
    | .run { path := some (.text p), .. } => readCommands p
    | _ => pure (.error Files.FileFault.missing)
  let seed ← IO.monoNanosNow
  let draws : Draws := { source := .generator (mkStdGen seed) }
  let (_, result) := CommandLine.run "dice" args (fun _ => file) draws
  match result with
  | .ok e =>
    IO.print e.output
    return e.status.toUInt32
  | .error f =>
    IO.eprintln f.text
    return 1
