import VerifiedLinks.Api.Listing
import VerifiedLinks.CommandLine.Arguments
import VerifiedLinks.Constants
import VerifiedLinks.Manifest.Wire

/-!
# Commands

Each command is a task.  All commands but the version first read a manifest.  The
exit code is 0 if all went well, 1 if some target has no link and the command asks
for all of them, 2 if the arguments or the manifest are not well formed or something
could not be read or written, and 101 if what is to be shown has too wide a column.

A task tells the log about the manifest, about each target that is checked, and about
the file that was written.  Which of this is shown is up to the log.
-/

namespace VerifiedLinks.CommandLine

/-- The run ends with a message. -/
def Task.fatal (message : String) : Task :=
  .done { code := 2, stderr := "linkcheck: " ++ message ++ "\n" }

/-- The run ends well. -/
def Task.print (text : String) : Task :=
  .done { code := 0, stdout := text }

/-- Goes on with a text that is laid out, or ends because it is not. -/
def orAbort (r : Except Text.ColumnTooWide String) (next : String → Task) : Task :=
  match r with
  | .ok text => next text
  | .error e => .done { code := 101, stderr := "linkcheck: " ++ e.message ++ "\n" }

/-- The run ends because some target has no link. -/
def Task.reject (r : Report) : Task :=
  orAbort r.summary fun text => .done { code := 1, stderr := text }

/-- How a message names a source. -/
def Source.name : Source → String
  | stdin => "stdin"
  | file path => path

/-- Goes on with a result, or ends with its error. -/
def orFatal {α : Type} (r : Except ManifestError α) (next : α → Task) : Task :=
  match r with
  | .ok a => next a
  | .error e => .fatal e.message

/-- Reads a manifest and goes on with it. -/
def withManifest (source : Source) (next : Manifest → Task) : Task :=
  .read source fun
    | .error e => .fatal ("failed to read " ++ source.name ++ ": " ++ e.message)
    | .ok bytes =>
      match String.fromUTF8? bytes with
      | none => .fatal ("failed to read " ++ source.name ++ ": stream did not contain valid UTF-8")
      | some text =>
        orFatal (Manifest.ofText text) fun m => .log (.loaded source m.links.size) (next m)

/-! ## Checks -/

/-- What a full check tells the log about a target. -/
def checkEntries (name : String) : Except LinkError Link → List LogEntry
  | .ok link => [.settled name (.ok link)]
  | .error e => [.refused e, .settled name (.error e)]

/-- What a check that fails fast tells the log about a target. -/
def failFastEntries (name : String) : Except LinkError Link → List LogEntry
  | .ok _ => []
  | .error e => [.refused e, .stopped name]

/-- Checks a manifest, tells the log about each target, and goes on with the report. -/
def withReport (m : Manifest) (failFast : Bool) (next : Report → Task) : Task :=
  orFatal (if failFast then m.checkFailFast else m.check) fun r =>
    let entries := if failFast then failFastEntries else checkEntries
    (r.outcomes.entries.flatMap fun e => entries e.1 e.2).foldr .log (next r)

/-! ## Commands -/

/-- The line that says how many links there are. -/
def countLine (n : Nat) : String :=
  if n = 1 then "1 link verified\n" else "all " ++ toString n ++ " links verified\n"

/-- What a command does. -/
def Command.task : Command → Task
  | check manifest failFast json =>
    withManifest manifest fun m =>
      withReport m failFast fun r =>
        if r.isOk then
          orFatal r.table fun t =>
            .print (if json then LinkTable.toLines t ++ "\n" else countLine r.size)
        else .reject r
  | render manifest =>
    withManifest manifest fun m => withReport m false fun r => orAbort r.summary .print
  | routes manifest =>
    withManifest manifest fun m => orFatal m.getApi fun api => orAbort api.listing .print
  | generate manifest output =>
    withManifest manifest fun m =>
      withReport m false fun r =>
        match r.table with
        | .error (.rejected ..) => .reject r
        | .error e => .fatal e.message
        | .ok t =>
          match output with
          | none => .print (LinkTable.sourceModule t)
          | some path =>
            .write path (LinkTable.sourceModule t) fun
              | .ok () => .log (.wrote t.size path) (.done { code := 0 })
              | .error e => .fatal ("failed to write " ++ path ++ ": " ++ e.message)
  | version => .print "linkcheck 0.1.0\n"

/-- What the program does with its arguments. -/
def program (env : Environment) (args : List String) : Task :=
  match Command.parse env args with
  | .ok c => c.task
  | .error e => .done { code := 2, stderr := e.message }

end VerifiedLinks.CommandLine
