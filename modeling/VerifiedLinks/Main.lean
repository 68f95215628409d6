import VerifiedLinks.CommandLine.Run

/-!
# The program

Takes the arguments and the environment, and carries out the task that they name.
-/

namespace VerifiedLinks.CommandLine

/-- The words of the system for a refusal. -/
def systemError : IO.Error → SystemError
  | .noFileOrDirectory .. => .noSuchFile
  | .inappropriateType _ 20 _ => .notDirectory
  | .inappropriateType _ 21 _ => .isDirectory
  | .resourceExhausted _ 28 _ => .noSpace
  | .invalidArgument _ 36 _ => .nameTooLong
  | e => .other (toString e)

/-- A result of the system, or its refusal. -/
def attempt {α : Type} (act : IO α) : IO (Except SystemError α) := do
  match ← act.toBaseIO with
  | .ok a => return .ok a
  | .error e => return .error (systemError e)

/-- All bytes of a source. -/
def readSource : Source → IO ByteArray
  | .stdin => do (← IO.getStdin).readBinToEnd
  | .file path => IO.FS.readBinFile path

/-- Carries a task out on the real system.  Of the log it shows what matters. -/
def carryOut : Task → IO Outcome
  | .done outcome => return outcome
  | .log entry next => do
    if entry.level = .info then IO.eprintln entry.message
    carryOut next
  | .read source next => do carryOut (next (← attempt (readSource source)))
  | .write path text next => do carryOut (next (← attempt (IO.FS.writeFile path text)))

end VerifiedLinks.CommandLine

open VerifiedLinks.CommandLine in
/-- Answers with the exit code of the run. -/
def main (args : List String) : IO UInt32 := do
  let env : Environment := { failFast := ← IO.getEnv "LINKCHECK_FAIL_FAST" }
  let outcome ← carryOut (program env args)
  IO.print outcome.stdout
  IO.eprint outcome.stderr
  return outcome.code.toUInt32
