import GameBoy.CommandLine

/-!
The program: the command line on the files of the system.
-/

namespace GameBoy.CommandLine

/-- What an error of the system means for the command line. -/
def FileError.ofSystem : IO.Error → FileError
  | .noFileOrDirectory _ _ _ => .notFound
  | .permissionDenied _ _ _ => .denied
  | .inappropriateType _ 20 _ => .notDirectory
  | .inappropriateType _ 21 _ => .isDirectory
  | .invalidArgument _ 36 _ => .nameTooLong
  | e => .other (toString e)

/-- Runs an action and turns its errors into values. -/
def attempt (action : IO α) : IO (Except FileError α) := do
  match ← action.toBaseIO with
  | .ok a => return .ok a
  | .error e => return .error (.ofSystem e)

/-- The files of the system. -/
def systemFiles : Files IO where
  read path := attempt do return ⟨← IO.FS.readBinFile path⟩
  present path := do
    match ← attempt (IO.FS.Handle.mk path .read) with
    | .error .notFound | .error .notDirectory | .error .nameTooLong => return false
    | _ => return true
  write path contents := attempt (IO.FS.writeBinFile path contents.bytes)

end GameBoy.CommandLine

def main (arguments : List String) : IO UInt32 := do
  let outcome ← GameBoy.CommandLine.run GameBoy.CommandLine.systemFiles arguments
  (← IO.getStdout).putStr outcome.stdout
  (← IO.getStderr).putStr outcome.stderr
  return UInt32.ofNat outcome.exitCode
