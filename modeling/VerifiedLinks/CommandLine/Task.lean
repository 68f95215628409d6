import VerifiedLinks.CommandLine.System

/-!
# Tasks

What a run of the program asks of the system is data.  A task tells something to the log,
reads a source, writes a file, or ends with an outcome, and after each answer of the system
it goes on.  So the program itself is a function, and only whoever carries a task out
touches files.  `Task.runIn` says what comes of it in a given system.
-/

namespace VerifiedLinks.CommandLine

/-- What a run leaves behind, besides files. -/
structure Outcome where
  /-- The exit code. -/
  code : Nat
  /-- The standard output. -/
  stdout : String := ""
  /-- The standard error. -/
  stderr : String := ""
deriving DecidableEq

/-- A run of the program. -/
inductive Task where
  /-- The run ends. -/
  | done (outcome : Outcome)
  /-- Something is told to the log. -/
  | log (entry : LogEntry) (next : Task)
  /-- All bytes of a source are read. -/
  | read (source : Source) (next : Except SystemError ByteArray → Task)
  /-- A file is written from the start. -/
  | write (path text : String) (next : Except SystemError Unit → Task)

/-- The outcome of a run that began with some texts on the standard output and the standard
error. -/
def Outcome.after (stdout stderr : String) (o : Outcome) : Outcome :=
  { o with stdout := stdout ++ o.stdout, stderr := stderr ++ o.stderr }

/-- What comes of a task in a system with these files: the outcome, and the files after it. -/
def Task.runIn {Place : Type} (sys : System Place) (files : Files Place) :
    Task → Outcome × Files Place
  | done outcome => (outcome, files)
  | log entry next =>
    let (outcome, files) := next.runIn sys files
    (outcome.after "" (sys.log entry), files)
  | read source next => (next (sys.bytes files source)).runIn sys files
  | write path text next =>
    let w := sys.write files path text
    let (outcome, files) := (next w.result).runIn sys w.files
    (outcome.after w.stdout w.stderr, files)

end VerifiedLinks.CommandLine
