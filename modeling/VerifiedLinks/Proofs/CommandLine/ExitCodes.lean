import VerifiedLinks.CommandLine.Run
import VerifiedLinks.Proofs.CommandLine.Arguments
import VerifiedLinks.Proofs.Manifest.FailFast
import VerifiedLinks.Proofs.Report.Columns

/-!
# Exit codes

What a run leaves behind is settled by its command line, by the manifest that it reads, if
there is one (`Source.manifest?`), and by what the system does when it is asked to write.

* Without a manifest the exit code is 2 (`fails_of_no_manifest`).
* A check succeeds exactly if all targets have links, whether it fails fast or not
  (`run_check`).
* A report and a listing are shown whatever they say (`run_render`, `run_routes`).
* Constants are made exactly if a check succeeds (`run_generate`).

So a run ends in one of two ways.  It prints a text or nothing, and no file changes
(`Task.Ends`), or it ends as a write of constants does (`Task.Writes`).  The second one is
where the laws of the system come in: such a run may fail after it has changed the file.

One thing spoils this.  What is shown to people is laid out in columns, also when it is to say
which targets have no link, and no column is wider than `Text.maxColumnWidth`.  A run that
needs a wider one ends with the exit code 101 (`run_longName`).  The main statement,
`run_contract`, says for every command line and every manifest which code there is.
-/

namespace VerifiedLinks.CommandLine

variable {Place : Type}

/-! ## Reading a manifest -/

/-- The manifest in a source: its bytes are the UTF-8 of a text, and the text is read as a
manifest with well-formed trees. -/
def Source.manifest? (sys : System Place) (files : Files Place) (source : Source) :
    Option Manifest := do
  let bytes ← (sys.bytes files source).toOption
  let text ← String.fromUTF8? bytes
  (Manifest.ofText text).toOption

/-- The source that a command reads a manifest from. -/
def Command.source? : Command → Option Source
  | check source .. => some source
  | render source => some source
  | routes source => some source
  | generate source _ => some source
  | version => none

section

variable {sys : System Place} {files : Files Place} {source : Source} {m : Manifest}

/-- The UTF-8 of a text is decoded to it, and nothing else is. -/
theorem fromUTF8?_eq_some_iff {bytes : ByteArray} {text : String} :
    String.fromUTF8? bytes = some text ↔ bytes = text.toUTF8 := by
  unfold String.fromUTF8?
  constructor
  · intro h
    split at h
    case isTrue =>
      cases h
      rfl
    case isFalse => cases h
  · intro h
    rw [h]
    exact dif_pos text.isValidUTF8

/-- There is a manifest exactly if the bytes are those of a text that spells one. -/
theorem Source.manifest?_eq_some_iff :
    source.manifest? sys files = some m ↔ ∃ text : String,
      sys.bytes files source = .ok text.toUTF8 ∧ Manifest.ofText text = .ok m := by
  have htoOption {ε α : Type} {x : Except ε α} {a : α} : x.toOption = some a ↔ x = .ok a := by
    cases x with
    | ok b => simp [Except.toOption]
    | error e => simp [Except.toOption]
  simp only [manifest?, Option.bind_eq_bind, Option.bind_eq_some_iff, htoOption,
    fromUTF8?_eq_some_iff]
  constructor
  · intro h
    obtain ⟨bytes, hbytes, text, hutf8, hread⟩ := h
    exact ⟨text, hutf8 ▸ hbytes, hread⟩
  · intro h
    obtain ⟨text, hbytes, hread⟩ := h
    exact ⟨_, hbytes, text, rfl, hread⟩

/-- The trees of a manifest that was read are well formed. -/
theorem Source.wellFormed_of_manifest? (h : source.manifest? sys files = some m) :
    m.api.WellFormed := by
  obtain ⟨text, _, hread⟩ := manifest?_eq_some_iff.mp h
  exact (Manifest.validate_eq_ok_iff.mp (Manifest.ofText_eq_ok_iff.mp hread).2).1

/-- A manifest that was read from a file is what the file holds. -/
theorem Source.exists_text_of_manifest? (hsys : sys.Lawful) {path : String} {p : Place}
    (h : (Source.file path).manifest? sys files = some m) (hp : sys.place? path = some p) :
    ∃ text, files p = some text.toUTF8 ∧ Manifest.ofText text = .ok m := by
  obtain ⟨text, hbytes, hread⟩ := manifest?_eq_some_iff.mp h
  exact ⟨text, hsys.read_ok hp hbytes, hread⟩

end

/-! ## Ways to end -/

/-- The task ends with this code and with this text on the standard output, and no file
changes. -/
structure Task.Ends (sys : System Place) (files : Files Place) (code : Nat) (stdout : String)
    (t : Task) : Prop where
  /-- The exit code. -/
  code_eq : (t.runIn sys files).1.code = code
  /-- The standard output. -/
  stdout_eq : (t.runIn sys files).1.stdout = stdout
  /-- The files are as they were. -/
  files_eq : (t.runIn sys files).2 = files

/-- The task ends well and prints a text. -/
abbrev Task.Prints (sys : System Place) (files : Files Place) (text : String) (t : Task) : Prop :=
  t.Ends sys files 0 text

/-- The task fails with this code and prints nothing to the standard output. -/
abbrev Task.Fails (sys : System Place) (files : Files Place) (code : Nat) (t : Task) : Prop :=
  t.Ends sys files code ""

/-- The task ends as the write of a text to a path does: well, or with the code 2. -/
structure Task.Writes (sys : System Place) (files : Files Place) (path text : String)
    (t : Task) : Prop where
  /-- The exit code. -/
  code_eq : (t.runIn sys files).1.code =
    match (sys.write files path text).result with
    | .ok () => 0
    | .error _ => 2
  /-- What the write has put on the standard output. -/
  stdout_eq : (t.runIn sys files).1.stdout = (sys.write files path text).stdout
  /-- The files are as the write has left them. -/
  files_eq : (t.runIn sys files).2 = (sys.write files path text).files

/-- Two tasks end with the same code, the same standard output and the same files. -/
structure Task.EndsAs (sys : System Place) (files : Files Place) (t u : Task) : Prop where
  /-- The exit codes. -/
  code_eq : (t.runIn sys files).1.code = (u.runIn sys files).1.code
  /-- The standard outputs. -/
  stdout_eq : (t.runIn sys files).1.stdout = (u.runIn sys files).1.stdout
  /-- The files. -/
  files_eq : (t.runIn sys files).2 = (u.runIn sys files).2

namespace Task.EndsAs

variable {sys : System Place} {files : Files Place} {t u v : Task}

theorem of_runIn_eq (h : t.runIn sys files = u.runIn sys files) : EndsAs sys files t u :=
  ⟨congrArg (·.1.code) h, congrArg (·.1.stdout) h, congrArg (·.2) h⟩

theorem trans (htu : EndsAs sys files t u) (huv : EndsAs sys files u v) : EndsAs sys files t v :=
  ⟨htu.code_eq.trans huv.code_eq, htu.stdout_eq.trans huv.stdout_eq,
    htu.files_eq.trans huv.files_eq⟩

/-- What the log is told plays no part in how a task ends. -/
theorem log (e : LogEntry) (t : Task) : EndsAs sys files (.log e t) t :=
  ⟨rfl, String.empty_append, rfl⟩

theorem logs (entries : List LogEntry) (t : Task) : EndsAs sys files (entries.foldr .log t) t := by
  induction entries with
  | nil => exact of_runIn_eq rfl
  | cons e entries ih => exact (log e _).trans ih

theorem ends {code : Nat} {stdout : String} (h : EndsAs sys files t u)
    (hu : u.Ends sys files code stdout) : t.Ends sys files code stdout :=
  ⟨h.code_eq.trans hu.code_eq, h.stdout_eq.trans hu.stdout_eq, h.files_eq.trans hu.files_eq⟩

theorem writes {path text : String} (h : EndsAs sys files t u)
    (hu : u.Writes sys files path text) : t.Writes sys files path text :=
  ⟨h.code_eq.trans hu.code_eq, h.stdout_eq.trans hu.stdout_eq, h.files_eq.trans hu.files_eq⟩

end Task.EndsAs

/-! ## Commands -/

section

variable {sys : System Place} {files : Files Place} {source : Source} {m : Manifest}

theorem runIn_read (next : Except SystemError ByteArray → Task) :
    (Task.read source next).runIn sys files = (next (sys.bytes files source)).runIn sys files :=
  rfl

/-- With a manifest, a task goes on with it. -/
theorem endsAs_withManifest (h : source.manifest? sys files = some m) (next : Manifest → Task) :
    (withManifest source next).EndsAs sys files (next m) := by
  obtain ⟨text, hbytes, hread⟩ := Source.manifest?_eq_some_iff.mp h
  have htext : String.fromUTF8? text.toUTF8 = some text := fromUTF8?_eq_some_iff.mpr rfl
  refine .trans (.of_runIn_eq ?_) (.log (.loaded source m.links.size) (next m))
  rw [withManifest, runIn_read, hbytes]
  simp only [htext, hread, orFatal]

/-- Without a manifest, a task fails. -/
theorem fails_withManifest (h : source.manifest? sys files = none) (next : Manifest → Task) :
    (withManifest source next).Fails sys files 2 := by
  have hfatal : ∃ message, (withManifest source next).runIn sys files =
      (Task.fatal message).runIn sys files := by
    rw [withManifest, runIn_read]
    cases hbytes : sys.bytes files source with
    | error e => exact ⟨_, rfl⟩
    | ok bytes =>
        cases htext : String.fromUTF8? bytes with
        | none =>
            simp only [htext]
            exact ⟨_, rfl⟩
        | some text =>
            simp only [htext]
            cases hread : Manifest.ofText text with
            | error e => exact ⟨_, rfl⟩
            | ok m =>
                rw [fromUTF8?_eq_some_iff.mp htext] at hbytes
                have hsome := Source.manifest?_eq_some_iff.mpr ⟨text, hbytes, hread⟩
                rw [h] at hsome
                cases hsome
  obtain ⟨message, hrun⟩ := hfatal
  exact (Task.EndsAs.of_runIn_eq hrun).ends ⟨rfl, rfl, rfl⟩

theorem endsAs_withReport {failFast : Bool} {r : Report}
    (h : (if failFast then m.checkFailFast else m.check) = .ok r) (next : Report → Task) :
    (withReport m failFast next).EndsAs sys files (next r) := by
  rw [withReport, h]
  exact .logs _ _

/-- With a manifest and its report, a task goes on with the report. -/
theorem endsAs_checked (failFast : Bool) {r : Report} (h : source.manifest? sys files = some m)
    (hr : (if failFast then m.checkFailFast else m.check) = .ok r) (next : Report → Task) :
    (withManifest source fun m => withReport m failFast next).EndsAs sys files (next r) :=
  (endsAs_withManifest h _).trans (endsAs_withReport hr next)

/-- The code of a run that has to say which targets have no link. -/
def rejectCode (r : Report) : Nat :=
  if r.Fits then 1 else 101

theorem rejectCode_ne_zero (r : Report) : rejectCode r ≠ 0 := by
  unfold rejectCode
  split
  · decide
  · decide

/-- A rejected report goes to the standard error, if it can be laid out. -/
theorem fails_reject (sys : System Place) (files : Files Place) (r : Report) :
    (Task.reject r).Fails sys files (rejectCode r) := by
  unfold Task.reject rejectCode
  by_cases h : r.Fits
  · rw [Report.summary_of_fits h, if_pos h]
    exact ⟨rfl, rfl, rfl⟩
  · rw [Report.summary_of_not_fits h, if_neg h]
    exact ⟨rfl, rfl, rfl⟩

/-- A task that writes and then ends, well if the write has succeeded and with the code 2 if it
has not, ends as the write does. -/
theorem writes_of_ends {path text : String} {next : Except SystemError Unit → Task}
    (hok : (next (.ok ())).Ends sys (sys.write files path text).files 0 "")
    (herror : ∀ e, (next (.error e)).Ends sys (sys.write files path text).files 2 "") :
    (Task.write path text next).Writes sys files path text := by
  have hnext : (next (sys.write files path text).result).Ends sys
      (sys.write files path text).files
      (match (sys.write files path text).result with
        | .ok () => 0
        | .error _ => 2) "" := by
    cases (sys.write files path text).result with
    | ok u => exact hok
    | error e => exact herror e
  have hstdout : ((Task.write path text next).runIn sys files).1.stdout =
      (sys.write files path text).stdout := by
    show (sys.write files path text).stdout ++ _ = _
    rw [hnext.stdout_eq, String.append_empty]
  exact ⟨hnext.code_eq, hstdout, hnext.files_eq⟩

namespace Command

/-- No command gets anywhere without a manifest. -/
theorem fails_of_no_manifest {c : Command} (hc : c.source? = some source)
    (h : source.manifest? sys files = none) : c.task.Fails sys files 2 := by
  cases c with
  | check manifest failFast json =>
      cases hc
      exact fails_withManifest h _
  | render manifest =>
      cases hc
      exact fails_withManifest h _
  | routes manifest =>
      cases hc
      exact fails_withManifest h _
  | generate manifest output =>
      cases hc
      exact fails_withManifest h _
  | version => cases hc

/-- What a check prints if all targets have links. -/
def checkText (json : Bool) (t : LinkTable) : String :=
  if json then LinkTable.toLines t ++ "\n" else countLine t.size

theorem size_of_verify {t : LinkTable} (h : m.verify = .ok t) : t.size = m.report.size := by
  have hnames := congrArg List.length (Manifest.names_of_verify h)
  rw [NameMap.names, NameMap.names, List.length_map, List.length_map] at hnames
  exact hnames.trans (List.length_map _).symm

/-- A check succeeds exactly if all targets have links.  The report that says which ones have
none is the beginning of the full one if the check fails fast. -/
theorem run_check (h : source.manifest? sys files = some m) (failFast json : Bool) :
    ∃ r, (if failFast then m.checkFailFast else m.check) = .ok r ∧
      r.outcomes.entries <+: m.report.outcomes.entries ∧
      (m.AllLink → ∃ t, m.verify = .ok t ∧
        (check source failFast json).task.Prints sys files (checkText json t)) ∧
      (¬ m.AllLink → (check source failFast json).task.Fails sys files (rejectCode r)) := by
  have hapi := Source.wellFormed_of_manifest? h
  obtain ⟨r, hr, hbegin, hfailures, hfull⟩ := Manifest.exists_checked hapi failFast
  have hisOk : r.isOk = true ↔ m.AllLink := by
    rw [Report.isOk_iff, ← Report.failures_eq_nil_iff, hfailures]
  refine ⟨r, hr, hbegin, fun hlinks => ?_, fun hlinks => ?_⟩
  · obtain ⟨t, hverify⟩ := (Manifest.exists_verify_eq_ok_iff hapi).mpr hlinks
    have htable : r.table = .ok t := by
      rw [hfull hlinks, ← Manifest.verify_of_wellFormed hapi, hverify]
    refine ⟨t, hverify, (endsAs_checked failFast h hr _).ends ?_⟩
    rw [if_pos (hisOk.mpr hlinks), htable, hfull hlinks, ← size_of_verify hverify]
    exact ⟨rfl, rfl, rfl⟩
  · refine (endsAs_checked failFast h hr _).ends ?_
    rw [if_neg (fun hok => hlinks (hisOk.mp hok))]
    exact fails_reject sys files r

/-- A report is printed if it can be laid out. -/
theorem run_render (h : source.manifest? sys files = some m) :
    (m.report.Fits → ∃ text, m.report.summary = .ok text ∧
      (render source).task.Prints sys files text) ∧
    (¬ m.report.Fits → (render source).task.Fails sys files 101) := by
  have hcheck := Manifest.check_of_wellFormed (Source.wellFormed_of_manifest? h)
  refine ⟨fun hfits => ⟨_, Report.summary_of_fits hfits, ?_⟩, fun hfits => ?_⟩
  · refine (endsAs_checked false h hcheck _).ends ?_
    rw [Report.summary_of_fits hfits]
    exact ⟨rfl, rfl, rfl⟩
  · refine (endsAs_checked false h hcheck _).ends ?_
    rw [Report.summary_of_not_fits hfits]
    exact ⟨rfl, rfl, rfl⟩

/-- A listing is printed if it can be laid out. -/
theorem run_routes (h : source.manifest? sys files = some m) :
    ∃ api, m.getApi = .ok api ∧
      (api.Fits → ∃ text, api.listing = .ok text ∧
        (routes source).task.Prints sys files text) ∧
      (¬ api.Fits → (routes source).task.Fails sys files 101) := by
  have hapi : m.getApi = .ok ⟨m.api, Source.wellFormed_of_manifest? h⟩ :=
    Manifest.getApi_eq_ok_iff.mpr rfl
  refine ⟨_, hapi, fun hfits => ⟨_, Api.listing_of_fits hfits, ?_⟩, fun hfits => ?_⟩
  · refine (endsAs_withManifest h _).ends ?_
    rw [hapi, orFatal, Api.listing_of_fits hfits]
    exact ⟨rfl, rfl, rfl⟩
  · refine (endsAs_withManifest h _).ends ?_
    rw [hapi, orFatal, Api.listing_of_not_fits hfits]
    exact ⟨rfl, rfl, rfl⟩

/-- Constants are made exactly if all targets have links.  They are printed, or written to the
file that is named. -/
theorem run_generate (h : source.manifest? sys files = some m) :
    (¬ m.AllLink → ∀ output,
      (generate source output).task.Fails sys files (rejectCode m.report)) ∧
    (m.AllLink → ∃ t, m.verify = .ok t ∧
      (generate source none).task.Prints sys files (LinkTable.sourceModule t) ∧
      ∀ path, (generate source (some path)).task.Writes sys files path
        (LinkTable.sourceModule t)) := by
  have hapi := Source.wellFormed_of_manifest? h
  have hcheck := Manifest.check_of_wellFormed hapi
  have hverify := Manifest.verify_of_wellFormed hapi
  refine ⟨fun hlinks output => ?_, fun hlinks => ?_⟩
  · refine (endsAs_checked false h hcheck _).ends ?_
    rw [← hverify, Manifest.verify_eq_rejected hapi hlinks]
    exact fails_reject sys files m.report
  · obtain ⟨t, ht⟩ := (Manifest.exists_verify_eq_ok_iff hapi).mpr hlinks
    refine ⟨t, ht, ?_, fun path => ?_⟩
    · refine (endsAs_checked false h hcheck _).ends ?_
      rw [← hverify, ht]
      exact ⟨rfl, rfl, rfl⟩
    · refine (endsAs_checked false h hcheck _).writes ?_
      rw [← hverify, ht]
      exact writes_of_ends ⟨rfl, rfl, rfl⟩ fun e => ⟨rfl, rfl, rfl⟩

/-! ## All runs -/

/-- A task that prints something in one case and fails in the other ends in one of two ways. -/
theorem prints_or_fails {t : Task} {P : Prop} {code : Nat} (hcode : code ≠ 0)
    (hprints : P → ∃ text, t.Prints sys files text) (hfails : ¬ P → t.Fails sys files code) :
    (∃ text, t.Prints sys files text) ∨ ∃ code, code ≠ 0 ∧ t.Fails sys files code := by
  by_cases hp : P
  · exact .inl (hprints hp)
  · exact .inr ⟨code, hcode, hfails hp⟩

/-- A command prints a text, or it fails and prints nothing, or it writes constants to a file. -/
theorem ends_or_writes (sys : System Place) (files : Files Place) (c : Command) :
    ((∃ text, c.task.Prints sys files text) ∨ ∃ code, code ≠ 0 ∧ c.task.Fails sys files code) ∨
      ∃ source path text, c = generate source (some path) ∧ c.task.Writes sys files path text := by
  cases hc : c.source? with
  | none =>
      cases c with
      | version => exact .inl (.inl ⟨_, rfl, rfl, rfl⟩)
      | _ => cases hc
  | some source =>
      cases h : source.manifest? sys files with
      | none => exact .inl (.inr ⟨2, by decide, fails_of_no_manifest hc h⟩)
      | some m =>
          cases c with
          | check manifest failFast json =>
              cases hc
              obtain ⟨r, _, _, hprints, hfails⟩ := run_check h failFast json
              refine .inl (prints_or_fails (rejectCode_ne_zero r) (fun hlinks => ?_) hfails)
              obtain ⟨t, _, hprints⟩ := hprints hlinks
              exact ⟨_, hprints⟩
          | render manifest =>
              cases hc
              obtain ⟨hprints, hfails⟩ := run_render h
              refine .inl (prints_or_fails (by decide) (fun hfits => ?_) hfails)
              obtain ⟨text, _, hprints⟩ := hprints hfits
              exact ⟨text, hprints⟩
          | routes manifest =>
              cases hc
              obtain ⟨api, _, hprints, hfails⟩ := run_routes h
              refine .inl (prints_or_fails (by decide) (fun hfits => ?_) hfails)
              obtain ⟨text, _, hprints⟩ := hprints hfits
              exact ⟨text, hprints⟩
          | generate manifest output =>
              cases hc
              obtain ⟨hfails, hlinks⟩ := run_generate h
              by_cases hall : m.AllLink
              · obtain ⟨t, _, hprints, hwrites⟩ := hlinks hall
                cases output with
                | none => exact .inl (.inl ⟨_, hprints⟩)
                | some path => exact .inr ⟨source, path, _, rfl, hwrites path⟩
              · exact .inl (.inr ⟨_, rejectCode_ne_zero _, hfails hall output⟩)
          | version => cases hc

end Command

end

/-! ## Command lines -/

theorem program_of_line {env : Environment} {args : List String} {c : Command}
    (h : Command.Line env args c) : program env args = c.task := by
  rw [program, Command.parse_eq_ok_iff.mpr h]

/-- A write to a file shows nothing.  If it succeeds the file holds the text, and if it does not
the file is as it was or holds a beginning of the text. -/
theorem Task.Writes.of_place {sys : System Place} (hsys : sys.Lawful) {files : Files Place}
    {path text : String} {t : Task} {p : Place} (h : t.Writes sys files path text)
    (hp : sys.place? path = some p) :
    (t.runIn sys files).1.stdout = "" ∧
      ((t.runIn sys files).1.code = 0 → (t.runIn sys files).2 p = some text.toUTF8) ∧
      ((t.runIn sys files).1.code ≠ 0 → (t.runIn sys files).2 p = files p ∨
        ∃ n, (t.runIn sys files).2 p = some (text.toUTF8.extract 0 n)) := by
  rw [h.code_eq, h.stdout_eq, h.files_eq]
  refine ⟨hsys.write_stdout hp, ?_⟩
  cases hresult : (sys.write files path text).result with
  | ok u => exact ⟨fun _ => hsys.write_ok hp hresult, fun hcode => absurd rfl hcode⟩
  | error e => exact ⟨nofun, fun _ => hsys.write_error hp hresult⟩

section

variable {sys : System Place} {files : Files Place} {env : Environment} {args : List String}

/-- Whatever the arguments are, the program prints, fails, or writes a file. -/
theorem ends_or_writes_program (sys : System Place) (files : Files Place) (env : Environment)
    (args : List String) :
    ((∃ text, (program env args).Prints sys files text) ∨
        ∃ code, code ≠ 0 ∧ (program env args).Fails sys files code) ∨
      ∃ source path text, Command.Line env args (.generate source (some path)) ∧
        (program env args).Writes sys files path text := by
  cases hparse : Command.parse env args with
  | error e =>
      rw [program, hparse]
      exact .inl (.inr ⟨2, by decide, rfl, rfl, rfl⟩)
  | ok c =>
      have hline := Command.parse_eq_ok_iff.mp hparse
      rw [program_of_line hline]
      obtain hends | ⟨source, path, text, rfl, hwrites⟩ := c.ends_or_writes sys files
      · exact .inl hends
      · exact .inr ⟨source, path, text, hline, hwrites⟩

/-- Only the file changes that constants are written to. -/
theorem exists_output_of_changed (hsys : sys.Lawful) {p : Place}
    (h : ((program env args).runIn sys files).2 p ≠ files p) :
    ∃ source path, Command.Line env args (.generate source (some path)) ∧
      sys.place? path = some p := by
  obtain (⟨text, hprints⟩ | ⟨code, _, hfails⟩) | ⟨source, path, text, hline, hwrites⟩ :=
    ends_or_writes_program sys files env args
  · exact absurd (congrFun hprints.files_eq p) h
  · exact absurd (congrFun hfails.files_eq p) h
  · refine ⟨source, path, hline, ?_⟩
    by_contra hp
    rw [hwrites.files_eq] at h
    exact h (hsys.write_elsewhere hp)

/-- A run that does not end well prints nothing to the standard output, unless that is where
constants were to be written. -/
theorem stdout_of_code_ne_zero (hsys : sys.Lawful)
    (h : ((program env args).runIn sys files).1.code ≠ 0) :
    ((program env args).runIn sys files).1.stdout = "" ∨
      ∃ source path, Command.Line env args (.generate source (some path)) ∧
        sys.place? path = none := by
  obtain (⟨text, hprints⟩ | ⟨code, _, hfails⟩) | ⟨source, path, text, hline, hwrites⟩ :=
    ends_or_writes_program sys files env args
  · exact absurd hprints.code_eq h
  · exact .inl hfails.stdout_eq
  · cases hp : sys.place? path with
    | none => exact .inr ⟨source, path, hline, hp⟩
    | some p => exact .inl (hwrites.of_place hsys hp).1

end

/-- The exit codes of all command lines.

* Without a manifest the code is 2.  A manifest in a file is what the file holds.
* If all targets have links a check succeeds, and constants are printed, or written to the file
  that is named.  What is written is what would be printed.  The code is 2 if that fails.
* If some target has no link, neither a check nor the constants succeed.  The code is 1, or 101
  if the report on which targets those are is too wide.
* A report and a listing succeed, unless they are too wide.
* Only the file changes that constants are written to.  It holds them if the run succeeds, and
  it may hold a beginning of them if not.
* A run that does not succeed prints nothing to the standard output. -/
theorem Command.run_contract {sys : System Place} (hsys : sys.Lawful) (files : Files Place)
    (env : Environment) (args : List String) :
    let t := program env args
    (∀ c source, Line env args c → c.source? = some source → source.manifest? sys files = none →
      t.Fails sys files 2) ∧
    (∀ (source : Source) m, source.manifest? sys files = some m →
      (∀ path p, source = .file path → sys.place? path = some p →
        ∃ text, files p = some text.toUTF8 ∧ Manifest.ofText text = .ok m) ∧
      (∀ failFast json, Line env args (check source failFast json) →
        ∃ r, (if failFast then m.checkFailFast else m.check) = .ok r ∧
          (m.report.Fits → r.Fits) ∧
          (m.AllLink → ∃ table, m.verify = .ok table ∧
            t.Prints sys files (checkText json table)) ∧
          (¬ m.AllLink → t.Fails sys files (rejectCode r))) ∧
      (Line env args (render source) →
        (m.report.Fits → ∃ text, m.report.summary = .ok text ∧ t.Prints sys files text) ∧
        (¬ m.report.Fits → t.Fails sys files 101)) ∧
      (Line env args (routes source) → ∃ api, m.getApi = .ok api ∧
        (api.Fits → ∃ text, api.listing = .ok text ∧ t.Prints sys files text) ∧
        (¬ api.Fits → t.Fails sys files 101)) ∧
      (∀ output, Line env args (generate source output) →
        (¬ m.AllLink → t.Fails sys files (rejectCode m.report)) ∧
        (m.AllLink → ∃ table, m.verify = .ok table ∧
          (output = none → t.Prints sys files (LinkTable.sourceModule table)) ∧
          ∀ path, output = some path →
            t.Writes sys files path (LinkTable.sourceModule table) ∧
            ∀ p, sys.place? path = some p →
              ((t.runIn sys files).1.code = 0 →
                (t.runIn sys files).2 p = some (LinkTable.sourceModule table).toUTF8) ∧
              ((t.runIn sys files).1.code ≠ 0 → (t.runIn sys files).2 p = files p ∨
                ∃ n, (t.runIn sys files).2 p =
                  some ((LinkTable.sourceModule table).toUTF8.extract 0 n))))) ∧
    (∀ p, (t.runIn sys files).2 p ≠ files p →
      ∃ source path, Line env args (generate source (some path)) ∧ sys.place? path = some p) ∧
    ((t.runIn sys files).1.code ≠ 0 → (t.runIn sys files).1.stdout = "" ∨
      ∃ source path, Line env args (generate source (some path)) ∧ sys.place? path = none) := by
  intro t
  have ht {c : Command} (hline : Line env args c) : t = c.task := program_of_line hline
  refine ⟨fun c source hline hc h => ?_, fun source m h => ⟨fun path p hpath hp => ?_,
    fun failFast json hline => ?_, fun hline => ?_, fun hline => ?_, fun output hline => ?_⟩,
    fun p h => exists_output_of_changed hsys h, fun h => stdout_of_code_ne_zero hsys h⟩
  · rw [ht hline]
    exact fails_of_no_manifest hc h
  · exact Source.exists_text_of_manifest? hsys (hpath ▸ h) hp
  · obtain ⟨r, hr, hbegin, hprints, hfails⟩ := run_check h failFast json
    rw [ht hline]
    exact ⟨r, hr, fun hfits => hfits.of_beginning hbegin, hprints, hfails⟩
  · rw [ht hline]
    exact run_render h
  · rw [ht hline]
    exact run_routes h
  · obtain ⟨hfails, hlinks⟩ := run_generate h
    rw [ht hline]
    refine ⟨fun hall => hfails hall output, fun hall => ?_⟩
    obtain ⟨table, hverify, hprints, hwrites⟩ := hlinks hall
    refine ⟨table, hverify, fun houtput => houtput ▸ hprints, fun path houtput => ?_⟩
    rw [houtput]
    exact ⟨hwrites path, fun p hp => ((hwrites path).of_place hsys hp).2⟩

/-! ## A system with little room -/

/-- A system in which each path leads to a place of its own, and no file has more bytes than
there is room for.  Of a text that is longer the beginning is written. -/
def System.withRoom (input : ByteArray) (room : Nat) : System String where
  place? := some
  stdin := .ok input
  read files path :=
    match files path with
    | some bytes => .ok bytes
    | none => .error .noSuchFile
  write files path text :=
    { result := if text.toUTF8.size ≤ room then .ok () else .error .noSpace
      files := fun p =>
        if p = path then some (text.toUTF8.extract 0 (min text.toUTF8.size room)) else files p }
  log := LogEntry.message

/-- A full disk is lawful: what a failed write leaves behind is a beginning of the text. -/
theorem System.lawful_withRoom (input : ByteArray) (room : Nat) :
    (withRoom input room).Lawful where
  read_ok {files path p bytes} hp hread := by
    cases hp
    simp only [withRoom] at hread
    split at hread
    case h_1 bytes' hfile =>
      cases hread
      exact hfile
    case h_2 => cases hread
  write_ok {files path text p} hp hresult := by
    cases hp
    have hroom : text.toUTF8.size ≤ room := by
      by_contra hroom
      have herror : (.error .noSpace : Except SystemError Unit) = .ok () :=
        (if_neg hroom).symm.trans hresult
      cases herror
    have hfile : ((withRoom input room).write files path text).files path =
        some (text.toUTF8.extract 0 (min text.toUTF8.size room)) := if_pos rfl
    rw [hfile, Nat.min_eq_left hroom, ByteArray.extract_zero_size]
  write_error {files path text p e} hp _ := by
    cases hp
    exact .inr ⟨_, if_pos rfl⟩
  write_elsewhere {files path text p} hp := if_neg fun heq => hp (congrArg some heq.symm)
  write_stdout _ := rfl

/-- A manifest with one target, `/a`. -/
def withOneTarget (api : Route) (name : String) : Manifest where
  api
  links := NameMap.empty.insert name (.path ["a"] .delete)

/-- The standard input holds the manifest that was written to it. -/
theorem manifest?_stdin {m : Manifest} (h : Manifest.ofText m.toText = .ok m) (room : Nat)
    (files : Files String) :
    Source.stdin.manifest? (.withRoom m.toText.toUTF8 room) files = some m :=
  Source.manifest?_eq_some_iff.mpr ⟨m.toText, rfl, h⟩

/-- Constants are written to a file that there is already.  With enough room they take the place
of what it held.  Without it the run fails, and the file holds a beginning of them. -/
theorem Command.run_contract_littleRoom :
    let m := withOneTarget (.path ["a"] .delete) "home"
    let files : Files String := fun p => if p = "links.rs" then some "fn main() ".toUTF8 else none
    let run room := (program {} ["generate", "-", "-o", "links.rs"]).runIn
      (.withRoom m.toText.toUTF8 room) files
    ∃ table, m.verify = .ok table ∧
      (run 1000).1.code = 0 ∧
      (run 1000).2 "links.rs" = some (LinkTable.sourceModule table).toUTF8 ∧
      (run 13).1.code = 2 ∧ (run 13).1.stdout = "" ∧
      (run 13).2 "links.rs" = some "// @generated".toUTF8 := by
  intro m files run
  let table : LinkTable := NameMap.empty.insert "home" ⟨"/a"⟩
  have hverify : m.verify = .ok table := rfl
  have hwrites (room : Nat) : (program {} ["generate", "-", "-o", "links.rs"]).Writes
        (.withRoom m.toText.toUTF8 room) files "links.rs" (LinkTable.sourceModule table) ∧
      ((run room).1.code = 0 →
        (run room).2 "links.rs" = some (LinkTable.sourceModule table).toUTF8) := by
    have hline : Line {} ["generate", "-", "-o", "links.rs"] (.generate .stdin (some "links.rs")) :=
      parse_eq_ok_iff.mp rfl
    have hread : Manifest.ofText m.toText = .ok m := Manifest.ofText_toText_iff.mpr ⟨rfl, rfl⟩
    have hlinks : m.AllLink := Manifest.failures_eq_nil_iff_allLink.mp rfl
    obtain ⟨_, hmanifest, _⟩ := run_contract (System.lawful_withRoom m.toText.toUTF8 room) files {}
      ["generate", "-", "-o", "links.rs"]
    obtain ⟨_, _, _, _, hgenerate⟩ := hmanifest .stdin m (manifest?_stdin hread room files)
    obtain ⟨table', hverify', _, hpath⟩ := (hgenerate _ hline).2 hlinks
    rw [hverify] at hverify'
    cases hverify'
    obtain ⟨hwrites, hplace⟩ := hpath _ rfl
    exact ⟨hwrites, (hplace _ rfl).1⟩
  have hroomy : (LinkTable.sourceModule table).toUTF8.size ≤ 1000 := by decide
  have hnarrow : ¬ (LinkTable.sourceModule table).toUTF8.size ≤ 13 := by decide
  have hok : (run 1000).1.code = 0 := by
    rw [(hwrites 1000).1.code_eq, System.withRoom]
    simp only [if_pos hroomy]
  refine ⟨table, hverify, hok, (hwrites 1000).2 hok, ?_, (hwrites 13).1.stdout_eq, ?_⟩
  · rw [(hwrites 13).1.code_eq, System.withRoom]
    simp only [if_neg hnarrow]
  · rw [(hwrites 13).1.files_eq, System.withRoom]
    simp only [if_pos]
    decide

/-! ## A name that is too long -/

/-- A report on one target can be laid out exactly if the name of the target fits. -/
theorem fits_withOneTarget_iff (api : Route) (name : String) :
    (withOneTarget api name).report.Fits ↔ name.utf8ByteSize ≤ Text.maxColumnWidth := by
  have hnames : (withOneTarget api name).report.outcomes.names = [name] := rfl
  rw [Report.Fits, hnames, Text.Fit, List.forall_mem_singleton]

/-- With a name of 65536 letters the manifest is read, and its one target has no link.  Still
neither a check nor the constants end with the code 1, and a report does not end with the
code 0. -/
theorem Command.run_longName :
    let m := withOneTarget (.verb .delete) (String.ofList (List.replicate 65536 'a'))
    let sys := System.withRoom m.toText.toUTF8 0
    let files : Files String := fun _ => none
    Source.stdin.manifest? sys files = some m ∧ ¬ m.AllLink ∧
      (program {} ["check", "-"]).Fails sys files 101 ∧
      (program {} ["check", "-", "--fail-fast"]).Fails sys files 101 ∧
      (program {} ["generate", "-"]).Fails sys files 101 ∧
      (program {} ["render", "-"]).Fails sys files 101 := by
  intro m sys files
  have hread : Manifest.ofText m.toText = .ok m := Manifest.ofText_toText_iff.mpr ⟨rfl, rfl⟩
  have h : Source.stdin.manifest? sys files = some m := manifest?_stdin hread 0 files
  have hlinks : ¬ m.AllLink := by
    intro hlinks
    cases Manifest.failures_eq_nil_iff_allLink.mpr hlinks
  have hfits : ¬ m.report.Fits := by
    rw [fits_withOneTarget_iff, Text.utf8ByteSize_replicate]
    decide
  have hcode : rejectCode m.report = 101 := if_neg hfits
  have hcheck (failFast : Bool) : (check .stdin failFast false).task.Fails sys files 101 := by
    obtain ⟨r, hr, _, _, hfails⟩ := run_check h failFast false
    have hsame : r = m.report := by
      cases failFast with
      | false => exact (Except.ok.inj hr).symm
      | true => exact (Except.ok.inj hr).symm
    exact hcode ▸ hsame ▸ hfails hlinks
  refine ⟨h, hlinks, hcheck false, hcheck true, ?_, (run_render h).2 hfits⟩
  exact hcode ▸ (run_generate h).1 hlinks none

end VerifiedLinks.CommandLine
