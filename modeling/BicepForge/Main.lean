import BicepForge.CommandLine.Run
import Std.Time.DateTime.Timestamp

/-!
# The program

Runs the words of a command line on the files of the system at the present time.
-/

namespace BicepForge

/-- The number of a system failure, which may come as a negative one. -/
def failureNumber (code : UInt32) : Nat :=
  min code.toNat (-code).toNat

/-- The file error behind a failure of the system. -/
def fileError (e : IO.Error) : FileError :=
  match e with
  | .alreadyExists _ code text | .otherError code text | .resourceBusy code text
  | .resourceVanished code text | .unsupportedOperation code text | .hardwareFault code text
  | .unsatisfiedConstraints code text | .illegalOperation code text | .protocolError code text
  | .timeExpired code text | .interrupted _ code text | .noFileOrDirectory _ code text
  | .invalidArgument _ code text | .permissionDenied _ code text | .resourceExhausted _ code text
  | .inappropriateType _ code text | .noSuchThing _ code text =>
    .ofNumber (failureNumber code) text
  | .unexpectedEof => .other "unexpected end of file"
  | .userError text => .other text

/-- The result of an action on files, with a failure of the system as a file error. -/
def attempt {α : Type} (action : IO α) : IO (Except FileError α) := do
  try return .ok (← action)
  catch e => return .error (fileError e)

/-- Makes a directory with all that hold it. Where a file is in the way, the failure tells whether
it stands at the path itself. -/
def ensureDirectory (path : String) : IO Unit := do
  if path ≠ "" then
    try IO.FS.createDirAll path
    catch
      | .alreadyExists .. => IO.FS.createDir path
      | e => throw e

def systemFiles : FileAccess IO where
  read path := do
    let bytes ← attempt (IO.FS.readBinFile path)
    return bytes.bind fun bytes =>
      match String.fromUTF8? bytes with
      | some text => .ok text
      | none => .error .notText
  write path text := attempt (IO.FS.writeFile path text)
  ensureDirectory path := attempt (ensureDirectory path)

/-- The present time. -/
def presentInstant : IO Instant := do
  let now ← Std.Time.Timestamp.now
  return ⟨now.toNanosecondsSinceUnixEpoch.val⟩

end BicepForge

/-- Runs the words of the command line and ends with the exit code of the run. -/
def main (words : List String) : IO UInt32 := do
  let outcome ← BicepForge.CommandLine.run
    ⟨BicepForge.systemFiles, ← BicepForge.presentInstant⟩ words
  (← IO.getStdout).putStr outcome.console.out
  (← IO.getStderr).putStr outcome.console.err
  return outcome.status.code.toUInt32
