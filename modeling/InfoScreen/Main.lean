import InfoScreen.Program.Run

/-!
# The program

The outer layer reads the one file that a command asks for, runs the command, and carries out what
it reports.  If a file turns out not to be writable, the command is run again knowing that.
-/

open InfoScreen.Program

def readIfPossible (path : String) : IO (Option ByteArray) := do
  try
    return some (← IO.FS.readBinFile path)
  catch _ =>
    return none

/-- Writes a file if it can be opened; answers what it has turned out to be. -/
def writeIfPossible (path content : String) : IO (Option Sink) := do
  let opened ←
    try
      pure (some (← IO.FS.Handle.mk path .write))
    catch _ =>
      pure none
  match opened with
  | none => return none
  | some handle =>
    try
      handle.putStr content
      handle.flush
      return some .file
    catch _ =>
      return some .full

def inputPath? : Command → Option String
  | .schedule layout _ _ _ => layout
  | .boot hexFile _ => some hexFile
  | .font path _ _ _ => some path

/-- Writes files in order; answers the first path that is not an ordinary file, and what it is. -/
def writeAll : List (String × String) → IO (Option (String × Option Sink))
  | [] => return none
  | (path, content) :: rest => do
    let sink ← writeIfPossible path content
    if sink = some .file then writeAll rest else return some (path, sink)

def main (words : List String) : IO UInt32 := do
  let input ←
    match Invocation.ofWords words with
    | .command command =>
      match inputPath? command with
      | some path => readIfPossible path
      | none => pure none
    | _ => pure none
  let report := run ⟨fun _ ↦ input, fun _ ↦ some .file⟩ words
  let report ←
    match ← writeAll report.written with
    | none => pure report
    | some (lost, sink) =>
      pure (run ⟨fun _ ↦ input, fun path ↦ if path = lost then sink else some .file⟩ words)
  (← IO.getStderr).putStr report.errors
  (← IO.getStdout).putStr report.output
  return UInt32.ofNat report.exitCode
