import VerifiedLinks.Link

/-!
# Systems

A *system* is what the program finds around it: a standard input, files that can be read
and written, and a log.  How all this works is up to the system.

Each file has a *place*, and a path leads to one place at most: to that of a file, or to
one where a file can be made.  The path of a folder or of a device leads to none.  Several
paths can lead to the same place.

A program cannot do without some laws (`System.Lawful`).  A file is read as it is, and after
a write it holds what was written.  But a write begins with an empty file, so one that fails
may have changed the file: it may hold a beginning of the text.  Reading changes no file, and
writing no other one.

The standard output and the standard error take all that is printed.
-/

namespace VerifiedLinks.CommandLine

/-- A refusal of the system. -/
inductive SystemError where
  | noSuchFile | notDirectory | isDirectory | noSpace | nameTooLong
  /-- Any other refusal, in the words of the system. -/
  | other (text : String)
deriving DecidableEq

/-- The words of the system. -/
def SystemError.message : SystemError → String
  | noSuchFile => "No such file or directory (os error 2)"
  | notDirectory => "Not a directory (os error 20)"
  | isDirectory => "Is a directory (os error 21)"
  | noSpace => "No space left on device (os error 28)"
  | nameTooLong => "File name too long (os error 36)"
  | other text => text

/-- Where a manifest comes from. -/
inductive Source where
  | stdin
  | file (path : String)
deriving DecidableEq

/-! ## The log -/

/-- What a run tells the log. -/
inductive LogEntry where
  /-- A manifest was read, with this number of targets. -/
  | loaded (source : Source) (targets : Nat)
  /-- There is no link to a target. -/
  | refused (e : LinkError)
  /-- What a full check found out about a target. -/
  | settled (name : String) (outcome : Except LinkError Link)
  /-- A check that fails fast stops behind a target. -/
  | stopped (name : String)
  /-- This number of constants was written to a file. -/
  | wrote (constants : Nat) (path : String)

/-- How much an entry matters, the least first. -/
inductive LogLevel where
  | trace | debug | info
deriving DecidableEq

namespace LogEntry

/-- How much an entry matters. -/
def level : LogEntry → LogLevel
  | settled .. => .trace
  | loaded .. => .debug
  | refused _ => .debug
  | stopped _ => .debug
  | wrote .. => .info

/-- What the log says. -/
def message : LogEntry → String
  | loaded .stdin n => "loaded manifest from - links=" ++ toString n
  | loaded (.file path) n => "loaded manifest from " ++ path ++ " links=" ++ toString n
  | refused (.notContained target) =>
    "link rejected: not contained in API route=" ++ target.display
  | refused (.notLinkable target node) =>
    "link rejected: not linkable route=" ++ target.display ++ " node=" ++ Text.quoted node.kind.name
  | settled name (.ok link) => "link verified name=" ++ name ++ " link=" ++ link.path
  | settled name (.error e) => "link rejected name=" ++ name ++ " error=" ++ e.message
  | stopped name => "stopping at first rejected link name=" ++ name
  | wrote n path => "wrote " ++ toString n ++ " links to " ++ path

end LogEntry

/-! ## Files -/

/-- What the files hold, by their places. -/
abbrev Files (Place : Type) := Place → Option ByteArray

/-- What came of a write. -/
structure Written (Place : Type) where
  /-- Whether all of the text was written. -/
  result : Except SystemError Unit
  /-- The files after the write. -/
  files : Files Place
  /-- What appeared on the standard output, if the path leads there. -/
  stdout : String := ""
  /-- What appeared on the standard error, if the path leads there. -/
  stderr : String := ""

/-- What the program finds around it. -/
structure System (Place : Type) where
  /-- The place that a path leads to. -/
  place? : String → Option Place
  /-- The bytes of the standard input. -/
  stdin : Except SystemError ByteArray
  /-- The bytes behind a path. -/
  read : Files Place → String → Except SystemError ByteArray
  /-- Writes a text to a path, from the start. -/
  write : Files Place → (path text : String) → Written Place
  /-- What the log shows of an entry, on the standard error. -/
  log : LogEntry → String

/-- The bytes of a source. -/
def System.bytes {Place : Type} (sys : System Place) (files : Files Place) :
    Source → Except SystemError ByteArray
  | .stdin => sys.stdin
  | .file path => sys.read files path

/-- What a program may count on. -/
structure System.Lawful {Place : Type} (sys : System Place) : Prop where
  /-- A file is read as it is. -/
  read_ok : ∀ {files : Files Place} {path : String} {p : Place} {bytes : ByteArray},
    sys.place? path = some p → sys.read files path = .ok bytes → files p = some bytes
  /-- A file that was written holds the text. -/
  write_ok : ∀ {files : Files Place} {path text : String} {p : Place},
    sys.place? path = some p → (sys.write files path text).result = .ok () →
      (sys.write files path text).files p = some text.toUTF8
  /-- A file that could not be written is as it was, or it holds a beginning of the text. -/
  write_error : ∀ {files : Files Place} {path text : String} {p : Place} {e : SystemError},
    sys.place? path = some p → (sys.write files path text).result = .error e →
      (sys.write files path text).files p = files p ∨
        ∃ n, (sys.write files path text).files p = some (text.toUTF8.extract 0 n)
  /-- No other file changes. -/
  write_elsewhere : ∀ {files : Files Place} {path text : String} {p : Place},
    sys.place? path ≠ some p → (sys.write files path text).files p = files p
  /-- What is written to a file does not appear on the standard output. -/
  write_stdout : ∀ {files : Files Place} {path text : String} {p : Place},
    sys.place? path = some p → (sys.write files path text).stdout = ""

end VerifiedLinks.CommandLine
