import VerifiedLinks.CommandLine.Task

/-!
# Arguments

The arguments name one of four commands and give it a manifest and some options.
Options can stand before and after the manifest, and none may be repeated.
Everything behind `--` is no option.  The option for logging is accepted in front
of the command, too.
-/

namespace VerifiedLinks.CommandLine

/-- What the program is asked to do. -/
inductive Command where
  /-- Verify every link.  `failFast` stops at the first failure, and `json` prints
  the table instead of the number of links. -/
  | check (manifest : Source) (failFast json : Bool)
  /-- Show the report. -/
  | render (manifest : Source)
  /-- List the endpoints. -/
  | routes (manifest : Source)
  /-- Write the constants of all links to a file or to the standard output. -/
  | generate (manifest : Source) (output : Option String)
  /-- Show the version. -/
  | version
deriving DecidableEq

/-- The variables that the program looks at. -/
structure Environment where
  /-- Whether to fail fast, if the arguments do not say so. -/
  failFast : Option String := none

/-- The arguments do not fit together. -/
structure UsageError where
deriving DecidableEq

/-- What the user is told. -/
def UsageError.message (_ : UsageError) : String :=
  "usage: linkcheck [--log FILTER] check MANIFEST [--fail-fast] [--json]\n" ++
  "       linkcheck [--log FILTER] render MANIFEST\n" ++
  "       linkcheck [--log FILTER] routes MANIFEST\n" ++
  "       linkcheck [--log FILTER] generate MANIFEST [-o FILE]\n" ++
  "       linkcheck --version\n" ++
  "A MANIFEST of - is read from the standard input.\n"

/-! ## Options -/

/-- The names of the commands. -/
inductive CommandName where
  | check | render | routes | generate
deriving DecidableEq

/-- The command with this name. -/
def CommandName.ofName? : String → Option CommandName
  | "check" => some check
  | "render" => some render
  | "routes" => some routes
  | "generate" => some generate
  | _ => none

/-- The options of the commands. -/
inductive OptionName where
  | log | failFast | json | output
deriving DecidableEq

/-- The option is followed by a value. -/
def OptionName.takesValue : OptionName → Bool
  | log => true
  | output => true
  | _ => false

/-- The spelling of an option behind its two dashes. -/
def OptionName.long : OptionName → String
  | log => "log"
  | failFast => "fail-fast"
  | json => "json"
  | output => "output"

/-- The options that a command has. -/
def CommandName.options : CommandName → List OptionName
  | check => [.log, .failFast, .json]
  | generate => [.log, .output]
  | _ => [.log]

/-- An argument in the light of the options there are. -/
inductive Argument where
  /-- An option, with the value that is part of the argument, if any. -/
  | option (name : OptionName) (value : Option String)
  /-- Two dashes and nothing else. -/
  | separator
  /-- No option. -/
  | word (s : String)
  /-- It looks like an option, but there is none like it. -/
  | unknown
deriving DecidableEq

/-- An argument that looks like an option: a dash with something behind it. -/
def looksLikeOption (s : String) : Bool :=
  match s.toList with
  | '-' :: _ :: _ => true
  | _ => false

/-- The option that is spelled out behind two dashes, with its value. -/
def longOption (options : List OptionName) (cs : List Char) : Argument :=
  match options.find? fun o => o.long.toList == cs.takeWhile (· != '=') with
  | none => .unknown
  | some o =>
    match cs.dropWhile (· != '=') with
    | [] => .option o none
    | _ :: value => .option o (some (String.ofList value))

/-- The value that stands behind a short option in the same argument. -/
def shortValue : List Char → Option String
  | [] => none
  | '=' :: value => some (String.ofList value)
  | value => some (String.ofList value)

/-- The short option of a command, with its value. -/
def shortOption (options : List OptionName) : List Char → Argument
  | 'o' :: value =>
    if OptionName.output ∈ options then .option .output (shortValue value) else .unknown
  | _ => .unknown

/-- What an argument is. -/
def Argument.of (options : List OptionName) (s : String) : Argument :=
  match s.toList with
  | ['-', '-'] => .separator
  | '-' :: '-' :: cs => longOption options cs
  | '-' :: c :: cs => shortOption options (c :: cs)
  | _ => .word s

/-! ## Commands -/

/-- The arguments of a command that have been read. -/
structure Parsed where
  /-- The options, each with its value or an empty text. -/
  options : List (OptionName × String) := []
  /-- The other arguments. -/
  words : List String := []

namespace Parsed

/-- An option is given. -/
def has (p : Parsed) (o : OptionName) : Bool :=
  (p.options.lookup o).isSome

/-- One more option, which is not there yet. -/
def addOption (p : Parsed) (o : OptionName) (value : String) : Except UsageError Parsed :=
  if p.has o then .error {} else .ok { p with options := p.options ++ [(o, value)] }

/-- One more argument that is no option. -/
def addWord (p : Parsed) (s : String) : Parsed :=
  { p with words := p.words ++ [s] }

/-- All arguments behind the name of a command. -/
def read (options : List OptionName) (p : Parsed) : List String → Except UsageError Parsed
  | [] => .ok p
  | s :: args =>
    match Argument.of options s with
    | .unknown => .error {}
    | .separator => .ok (args.foldl addWord p)
    | .word s => read options (p.addWord s) args
    | .option o (some value) =>
      if o.takesValue then do read options (← p.addOption o value) args else .error {}
    | .option o none =>
      if o.takesValue then
        match args with
        | [] => .error {}
        | value :: args =>
          if looksLikeOption value then .error {}
          else do read options (← p.addOption o value) args
      else do read options (← p.addOption o "") args

end Parsed

/-- The source of a manifest.  A dash stands for the standard input. -/
def Source.ofArgument (s : String) : Except UsageError Source :=
  if s = "" then .error {}
  else if s = "-" then .ok .stdin
  else .ok (.file s)

/-- Whether to fail fast.  The variable counts only if the option is not given. -/
def Parsed.failFast (env : Environment) (p : Parsed) : Except UsageError Bool :=
  if p.has .failFast then .ok true
  else
    match env.failFast with
    | none => .ok false
    | some "true" => .ok true
    | some "false" => .ok false
    | some _ => .error {}

/-- The file to be written, if there is one.  It has a name. -/
def Parsed.output (p : Parsed) : Except UsageError (Option String) :=
  match p.options.lookup .output with
  | some "" => .error {}
  | o => .ok o

/-- The command with this name, this manifest and the options that were read. -/
def CommandName.withOptions (env : Environment) (c : CommandName) (manifest : Source)
    (p : Parsed) : Except UsageError Command := do
  match c with
  | check => .ok (.check manifest (← p.failFast env) (p.has .json))
  | render => .ok (.render manifest)
  | routes => .ok (.routes manifest)
  | generate => .ok (.generate manifest (← p.output))

/-- The command with this name and these arguments. -/
def CommandName.command (env : Environment) (c : CommandName) (args : List String) :
    Except UsageError Command := do
  let p ← Parsed.read c.options {} args
  match p.words with
  | [s] => c.withOptions env (← Source.ofArgument s) p
  | _ => .error {}

/-- The argument asks for the version.  Behind the short option anything can stand. -/
def asksForVersion (s : String) : Bool :=
  match s.toList with
  | '-' :: 'V' :: _ => true
  | _ => s == "--version"

/-- The command in front of which stand only options for logging, of which `logged`
says whether there was one. -/
def Command.parseFrom (env : Environment) (logged : Bool) :
    List String → Except UsageError Command
  | [] => .error {}
  | s :: args =>
    if asksForVersion s then .ok .version
    else
      match Argument.of [.log] s with
      | .option _ (some _) => if logged then .error {} else parseFrom env true args
      | .option _ none =>
        match args with
        | [] => .error {}
        | value :: args =>
          if logged || looksLikeOption value then .error {} else parseFrom env true args
      | .word s =>
        match CommandName.ofName? s with
        | some c => c.command env args
        | none => .error {}
      | _ => .error {}

/-- The command that the arguments name. -/
def Command.parse (env : Environment) (args : List String) : Except UsageError Command :=
  parseFrom env false args

end VerifiedLinks.CommandLine
