import VerifiedLinks.CommandLine.Arguments
import VerifiedLinks.Result

/-!
# Command lines

Which arguments name which command is said without the reader of arguments.

* `Spelled`: an option with its value, as one or two arguments.
* `Listed`: the options and the words of a command, in any order.
* `Source.Named`, `FailFast`, `Output`: what the words and the options come to.
* `CommandName.Called`: the arguments behind the name of a command.
* `Command.Line`: a whole command line.

An option is listed once at most, and there is exactly one word, the manifest.  The variable
of the environment counts for a check only, and only if the option is not listed.

The reader finds a command exactly if there is one (`Command.parse_eq_ok_iff`).  So a command
line names no two commands.
-/

namespace VerifiedLinks.CommandLine

/-! ## Options -/

/-- How an option of a command is written, with its value.  An option that takes no value has
the empty text for one. -/
inductive Spelled (options : List OptionName) : List String → OptionName × String → Prop
  /-- `--json` -/
  | flag {o : OptionName} : o ∈ options → o.takesValue = false →
      Spelled options ["--" ++ o.long] (o, "")
  /-- `--output=FILE` -/
  | joined {o : OptionName} (value : String) : o ∈ options → o.takesValue = true →
      Spelled options ["--" ++ o.long ++ "=" ++ value] (o, value)
  /-- `--output FILE` -/
  | apart {o : OptionName} {value : String} : o ∈ options → o.takesValue = true →
      looksLikeOption value = false → Spelled options ["--" ++ o.long, value] (o, value)
  /-- `-oFILE` -/
  | short {value : String} : .output ∈ options → value ≠ "" → value.toList.head? ≠ some '=' →
      Spelled options ["-o" ++ value] (.output, value)
  /-- `-o=FILE` -/
  | shortJoined (value : String) : .output ∈ options →
      Spelled options ["-o=" ++ value] (.output, value)
  /-- `-o FILE` -/
  | shortApart {value : String} : .output ∈ options → looksLikeOption value = false →
      Spelled options ["-o", value] (.output, value)

/-- The options and the words that the arguments of a command list, each in their order. -/
inductive Listed (options : List OptionName) :
    List String → List (OptionName × String) → List String → Prop
  | nil : Listed options [] [] []
  | word {s : String} {args : List String} {os : List (OptionName × String)} {ws : List String} :
      looksLikeOption s = false → Listed options args os ws →
      Listed options (s :: args) os (s :: ws)
  | option {front args : List String} {o : OptionName × String} {os : List (OptionName × String)}
      {ws : List String} :
      Spelled options front o → Listed options args os ws →
      Listed options (front ++ args) (o :: os) ws
  /-- Behind two dashes there is no option. -/
  | separator (ws : List String) : Listed options ("--" :: ws) [] ws

/-! ## Commands -/

/-- The source that a word names. -/
inductive Source.Named : String → Source → Prop
  | stdin : Named "-" .stdin
  | file {path : String} : path ≠ "" → path ≠ "-" → Named path (.file path)

/-- Whether options and the environment ask for failing fast. -/
inductive FailFast (env : Environment) (os : List (OptionName × String)) : Bool → Prop
  | option : .failFast ∈ os.map Prod.fst → FailFast env os true
  | on : .failFast ∉ os.map Prod.fst → env.failFast = some "true" → FailFast env os true
  | off : .failFast ∉ os.map Prod.fst → env.failFast = some "false" → FailFast env os false
  | unset : .failFast ∉ os.map Prod.fst → env.failFast = none → FailFast env os false

/-- The file that options name for what is written. -/
inductive Output (os : List (OptionName × String)) : Option String → Prop
  | none : .output ∉ os.map Prod.fst → Output os none
  | file {path : String} : (.output, path) ∈ os → path ≠ "" → Output os (some path)

/-- The arguments give a command these options, each at most once, and this manifest. -/
def CommandName.Given (name : CommandName) (args : List String) (os : List (OptionName × String))
    (manifest : Source) : Prop :=
  (os.map Prod.fst).Nodup ∧ ∃ s, Listed name.options args os [s] ∧ manifest.Named s

/-- The command with a name and with the arguments behind it. -/
inductive CommandName.Called (env : Environment) (args : List String) :
    CommandName → Command → Prop
  | check {os : List (OptionName × String)} {manifest : Source} {failFast : Bool} :
      CommandName.check.Given args os manifest → FailFast env os failFast →
      Called env args .check (.check manifest failFast (decide (.json ∈ os.map Prod.fst)))
  | render {os : List (OptionName × String)} {manifest : Source} :
      CommandName.render.Given args os manifest → Called env args .render (.render manifest)
  | routes {os : List (OptionName × String)} {manifest : Source} :
      CommandName.routes.Given args os manifest → Called env args .routes (.routes manifest)
  | generate {os : List (OptionName × String)} {manifest : Source} {output : Option String} :
      CommandName.generate.Given args os manifest → Output os output →
      Called env args .generate (.generate manifest output)

/-- The command that arguments name without an option in front of it.  Only the first argument
counts if it asks for the version. -/
inductive Command.Named (env : Environment) : List String → Command → Prop
  | version {s : String} (args : List String) : asksForVersion s = true →
      Named env (s :: args) .version
  | called {s : String} {args : List String} {name : CommandName} {c : Command} :
      CommandName.ofName? s = some name → name.Called env args c → Named env (s :: args) c

/-- The command that a command line names.  One option for logging can stand in front of it. -/
inductive Command.Line (env : Environment) : List String → Command → Prop
  | plain {args : List String} {c : Command} : Named env args c → Line env args c
  | logged {front args : List String} {filter : String} {c : Command} :
      Spelled [.log] front (.log, filter) → Named env args c → Line env (front ++ args) c

/-! ## One argument -/

theorem OptionName.eq_of_long {o o' : OptionName} (h : o.long.toList = o'.long.toList) :
    o = o' := by
  cases o <;> cases o' <;> simp_all [long]

/-- What stands behind the name of an option in the same argument. -/
def valuePart : Option String → List Char
  | none => []
  | some value => '=' :: value.toList

section

variable {options : List OptionName} {o : OptionName} {v : Option String}

/-- The long name of an option ends where the equals sign of its value stands. -/
theorem spans_long (o : OptionName) (v : Option String) :
    (o.long.toList ++ valuePart v).takeWhile (· != '=') = o.long.toList ∧
      (o.long.toList ++ valuePart v).dropWhile (· != '=') = valuePart v := by
  have hlong : ∀ c ∈ o.long.toList, (c != '=') = true := by
    cases o <;> simp [OptionName.long]
  rw [List.takeWhile_append_of_pos hlong, List.dropWhile_append_of_pos hlong]
  cases v with
  | none => exact ⟨List.append_nil _, rfl⟩
  | some value => exact ⟨List.append_nil _, rfl⟩

theorem find?_long (h : o ∈ options) :
    options.find? (fun o' => o'.long.toList == o.long.toList) = some o := by
  cases hfind : options.find? (fun o' => o'.long.toList == o.long.toList) with
  | none => exact absurd (List.find?_eq_none.mp hfind o h) (by simp)
  | some o' =>
      have hlong : o'.long.toList = o.long.toList := by simpa using List.find?_some hfind
      rw [OptionName.eq_of_long hlong]

/-- Behind two dashes, an option is its long name with or without a value. -/
theorem longOption_eq_option_iff {cs : List Char} :
    longOption options cs = .option o v ↔ o ∈ options ∧ cs = o.long.toList ++ valuePart v := by
  constructor
  · intro h
    unfold longOption at h
    cases hfind : options.find? (fun o => o.long.toList == cs.takeWhile (· != '=')) with
    | none =>
        rw [hfind] at h
        cases h
    | some o' =>
        have hlong : o'.long.toList = cs.takeWhile (· != '=') := by
          simpa using List.find?_some hfind
        have hcs : cs = o'.long.toList ++ cs.dropWhile (· != '=') := by
          rw [hlong, List.takeWhile_append_dropWhile]
        rw [hfind] at h
        cases hrest : cs.dropWhile (· != '=') with
        | nil =>
            simp only [hrest] at h
            cases h
            rw [hrest] at hcs
            exact ⟨List.mem_of_find?_eq_some hfind, hcs⟩
        | cons c value =>
            have hc := List.head?_dropWhile_not (· != '=') cs
            simp only [hrest, List.head?_cons, bne_eq_false_iff_eq] at h hc
            cases h
            refine ⟨List.mem_of_find?_eq_some hfind, ?_⟩
            rw [valuePart, String.toList_ofList, ← hc, ← hrest]
            exact hcs
  · intro ⟨hmem, hcs⟩
    obtain ⟨htake, hdrop⟩ := spans_long o v
    rw [longOption, hcs, htake, find?_long hmem, hdrop]
    cases v with
    | none => rfl
    | some value => exact congrArg (Argument.option o <| some ·) String.ofList_toList

theorem shortValue_eq_none_iff {cs : List Char} : shortValue cs = none ↔ cs = [] := by
  unfold shortValue
  split <;> simp_all

/-- Behind a short name, a value is all that follows, less one equals sign in front. -/
theorem shortValue_eq_some_iff {cs : List Char} {value : String} :
    shortValue cs = some value ↔ cs = '=' :: value.toList ∨
      cs = value.toList ∧ value ≠ "" ∧ value.toList.head? ≠ some '=' := by
  have hofList {cs : List Char} : String.ofList cs = value ↔ cs = value.toList := by
    rw [← String.toList_inj, String.toList_ofList]
  unfold shortValue
  split
  case h_1 =>
    refine iff_of_false (fun h => by cases h) (fun h => ?_)
    obtain h | ⟨h, hne, _⟩ := h
    · cases h
    · exact hne (hofList.mpr h).symm
  case h_2 cs =>
    rw [Option.some.injEq, hofList, List.cons.injEq, and_iff_right rfl, or_iff_left]
    intro ⟨h, _, hhead⟩
    exact hhead (h ▸ rfl)
  case h_3 hne heq =>
    rw [Option.some.injEq, hofList, or_iff_right (fun h => heq _ h), iff_self_and]
    intro h
    refine ⟨fun hempty => hne (by rw [h, hempty]; rfl), fun hhead => ?_⟩
    obtain ⟨rest, hrest⟩ := List.head?_eq_some_iff.mp hhead
    exact heq rest (h.trans hrest)

/-- Behind one dash, the only option is that for the output. -/
theorem shortOption_eq_option_iff {cs : List Char} :
    shortOption options cs = .option o v ↔ o = .output ∧ o ∈ options ∧
      ∃ value, cs = 'o' :: value ∧ shortValue value = v := by
  unfold shortOption
  split
  case h_1 value =>
    split
    case isTrue hmem =>
      constructor
      · intro h
        cases h
        exact ⟨rfl, hmem, value, rfl, rfl⟩
      · intro ⟨ho, _, value', hvalue, hv⟩
        cases hvalue
        rw [ho, hv]
    case isFalse hmem =>
      refine iff_of_false (fun h => by cases h) (fun h => ?_)
      obtain ⟨ho, hmem', _⟩ := h
      exact hmem (ho ▸ hmem')
  case h_2 hne =>
    refine iff_of_false (fun h => by cases h) (fun h => ?_)
    obtain ⟨_, _, value, hvalue, _⟩ := h
    exact hne value hvalue

theorem Argument.of_eq_option_iff {s : String} :
    Argument.of options s = .option o v ↔ o ∈ options ∧
      (s.toList = '-' :: '-' :: (o.long.toList ++ valuePart v) ∨
        o = .output ∧ ∃ value, s.toList = '-' :: 'o' :: value ∧ shortValue value = v) := by
  have hlong : o.long.toList ++ valuePart v ≠ [] := by cases o <;> simp [OptionName.long]
  unfold Argument.of
  split
  case h_1 h =>
    refine iff_of_false (fun h => by cases h) (fun ⟨_, hs⟩ => ?_)
    simp_all
  case h_2 cs hne h =>
    rw [longOption_eq_option_iff, h]
    simp
  case h_3 c cs _ hdash h =>
    have hc : c ≠ '-' := hdash
    rw [shortOption_eq_option_iff, h, and_left_comm]
    simp [hc]
  case h_4 hword =>
    refine iff_of_false (fun h => by cases h) (fun ⟨_, hs⟩ => ?_)
    obtain hs | ⟨_, value, hs, _⟩ := hs
    · exact hword _ _ hs
    · exact hword _ _ hs

/-- The ways to name an option whose value is the next argument. -/
theorem Argument.of_eq_option_none_iff {s : String} :
    Argument.of options s = .option o none ↔
      o ∈ options ∧ (s = "--" ++ o.long ∨ o = .output ∧ s = "-o") := by
  simp only [of_eq_option_iff, shortValue_eq_none_iff, valuePart, ← String.toList_inj,
    String.toList_append, List.append_nil, exists_eq_right]
  exact Iff.rfl

/-- The ways to name an option and its value in one argument. -/
theorem Argument.of_eq_option_some_iff {s value : String} :
    Argument.of options s = .option o (some value) ↔ o ∈ options ∧
      (s = "--" ++ o.long ++ "=" ++ value ∨ o = .output ∧ (s = "-o=" ++ value ∨
        s = "-o" ++ value ∧ value ≠ "" ∧ value.toList.head? ≠ some '=')) := by
  have hlong : s = "--" ++ o.long ++ "=" ++ value ↔
      s.toList = '-' :: '-' :: (o.long.toList ++ valuePart (some value)) := by
    simp [← String.toList_inj, valuePart]
  have hjoined : s = "-o=" ++ value ↔ s.toList = '-' :: 'o' :: '=' :: value.toList := by
    simp [← String.toList_inj]
  have hshort : s = "-o" ++ value ↔ s.toList = '-' :: 'o' :: value.toList := by
    simp [← String.toList_inj]
  rw [of_eq_option_iff, hlong, hjoined, hshort]
  refine and_congr_right fun _ => or_congr_right (and_congr_right fun _ => ?_)
  simp only [shortValue_eq_some_iff]
  constructor
  · intro ⟨cs, hs, hcs⟩
    obtain rfl | ⟨rfl, hvalue⟩ := hcs
    · exact .inl hs
    · exact .inr ⟨hs, hvalue⟩
  · intro h
    obtain hs | ⟨hs, hvalue⟩ := h
    · exact ⟨_, hs, .inl rfl⟩
    · exact ⟨_, hs, .inr ⟨rfl, hvalue⟩⟩

/-- The argument is an option, or there is no option like it. -/
def Argument.IsOption : Argument → Prop
  | option .. => True
  | unknown => True
  | _ => False

theorem isOption_longOption (options : List OptionName) (cs : List Char) :
    (longOption options cs).IsOption := by
  unfold longOption
  split
  · trivial
  · split <;> trivial

theorem isOption_shortOption (options : List OptionName) (cs : List Char) :
    (shortOption options cs).IsOption := by
  unfold shortOption
  split
  · split <;> trivial
  · trivial

theorem looksLikeOption_iff {s : String} :
    looksLikeOption s = true ↔ ∃ c cs, s.toList = '-' :: c :: cs := by
  unfold looksLikeOption
  split
  · simp_all
  · simp_all

/-- An argument that looks like an option is two dashes or is taken for an option, and any other
one is a word. -/
theorem Argument.of_cases (options : List OptionName) (s : String) :
    s = "--" ∧ Argument.of options s = .separator ∨
      s ≠ "--" ∧ looksLikeOption s = true ∧ (Argument.of options s).IsOption ∨
      looksLikeOption s = false ∧ Argument.of options s = .word s := by
  have hdashes : s = "--" ↔ s.toList = ['-', '-'] := by
    rw [← String.toList_inj]
    exact Iff.rfl
  rw [ne_eq, hdashes, looksLikeOption_iff, ← Bool.not_eq_true, looksLikeOption_iff]
  unfold Argument.of
  split
  case h_1 h => exact .inl ⟨h, rfl⟩
  case h_2 cs hne h =>
    refine .inr (.inl ⟨fun h' => ?_, ⟨_, _, h⟩, isOption_longOption _ _⟩)
    rw [h, List.cons.injEq, List.cons.injEq] at h'
    exact hne h'.2.2
  case h_3 c cs _ hc h =>
    refine .inr (.inl ⟨fun h' => ?_, ⟨_, _, h⟩, isOption_shortOption _ _⟩)
    rw [h, List.cons.injEq, List.cons.injEq] at h'
    exact hc h'.2.1
  case h_4 hword =>
    exact .inr (.inr ⟨fun ⟨_, _, h⟩ => hword _ _ h, rfl⟩)

/-- A word is an argument that does not look like an option. -/
theorem Argument.of_eq_word_iff {s w : String} :
    Argument.of options s = .word w ↔ w = s ∧ looksLikeOption s = false := by
  obtain ⟨rfl, h⟩ | ⟨_, hdash, h⟩ | ⟨hdash, h⟩ := Argument.of_cases options s
  · rw [h]
    exact iff_of_false (fun h => by cases h) (fun ⟨_, h⟩ => by cases h)
  · rw [hdash]
    refine iff_of_false (fun hw => ?_) (fun ⟨_, h⟩ => by cases h)
    rw [hw] at h
    exact h
  · rw [h, hdash, word.injEq, and_iff_left rfl, eq_comm]

theorem Argument.of_eq_separator_iff {s : String} :
    Argument.of options s = .separator ↔ s = "--" := by
  obtain ⟨rfl, h⟩ | ⟨hne, _, h⟩ | ⟨hdash, h⟩ := Argument.of_cases options s
  · exact iff_of_true h rfl
  · refine iff_of_false (fun hs => ?_) hne
    rw [hs] at h
    exact h
  · rw [h]
    refine iff_of_false (fun h => by cases h) (fun hs => ?_)
    rw [hs] at hdash
    cases hdash

/-- How an option is spelled, told by what its first argument is. -/
theorem spelled_iff {front : List String} {value : String} :
    Spelled options front (o, value) ↔
      o.takesValue = true ∧ (∃ s, front = [s] ∧ Argument.of options s = .option o (some value)) ∨
      o.takesValue = true ∧ looksLikeOption value = false ∧
        (∃ s, front = [s, value] ∧ Argument.of options s = .option o none) ∨
      o.takesValue = false ∧ value = "" ∧
        (∃ s, front = [s] ∧ Argument.of options s = .option o none) := by
  simp only [Argument.of_eq_option_none_iff, Argument.of_eq_option_some_iff]
  constructor
  · intro h
    cases h with
    | flag hmem ho => exact .inr (.inr ⟨ho, rfl, _, rfl, hmem, .inl rfl⟩)
    | joined _ hmem ho => exact .inl ⟨ho, _, rfl, hmem, .inl rfl⟩
    | apart hmem ho hvalue => exact .inr (.inl ⟨ho, hvalue, _, rfl, hmem, .inl rfl⟩)
    | short hmem hne hhead => exact .inl ⟨rfl, _, rfl, hmem, .inr ⟨rfl, .inr ⟨rfl, hne, hhead⟩⟩⟩
    | shortJoined _ hmem => exact .inl ⟨rfl, _, rfl, hmem, .inr ⟨rfl, .inl rfl⟩⟩
    | shortApart hmem hvalue => exact .inr (.inl ⟨rfl, hvalue, _, rfl, hmem, .inr ⟨rfl, rfl⟩⟩)
  · intro h
    obtain ⟨ho, s, rfl, hmem, rfl | ⟨rfl, rfl | ⟨rfl, hne, hhead⟩⟩⟩ |
      ⟨ho, hvalue, s, rfl, hmem, rfl | ⟨rfl, rfl⟩⟩ | ⟨ho, rfl, s, rfl, hmem, rfl | ⟨rfl, rfl⟩⟩ := h
    · exact .joined value hmem ho
    · exact .shortJoined value hmem
    · exact .short hmem hne hhead
    · exact .apart hmem ho hvalue
    · exact .shortApart hmem hvalue
    · exact .flag hmem ho
    · cases ho

end

/-! ## All arguments of a command -/

namespace Parsed

variable {options : List OptionName} {p q : Parsed}

theorem has_iff {o : OptionName} : p.has o = true ↔ o ∈ p.options.map Prod.fst := by
  rw [has, List.lookup_isSome_iff, List.mem_map]
  simp only [beq_iff_eq]
  exact exists_congr fun e => and_congr_right fun _ => eq_comm

theorem has_eq_decide {o : OptionName} : p.has o = decide (o ∈ p.options.map Prod.fst) := by
  rw [Bool.eq_iff_iff, has_iff, decide_eq_true_iff]

/-- An option can be given once. -/
theorem addOption_eq_ok_iff {o : OptionName} {value : String} :
    p.addOption o value = .ok q ↔ o ∉ p.options.map Prod.fst ∧
      q = { p with options := p.options ++ [(o, value)] } := by
  rw [addOption, ← has_iff]
  split
  case isTrue h => exact iff_of_false (fun h => by cases h) (fun hnew => hnew.1 h)
  case isFalse h => rw [Except.ok.injEq, and_iff_right h, eq_comm]

theorem foldl_addWord (p : Parsed) (ws : List String) :
    ws.foldl addWord p = { p with words := p.words ++ ws } := by
  induction ws generalizing p with
  | nil => rw [List.foldl_nil, List.append_nil]
  | cons w ws ih =>
      rw [List.foldl_cons, ih]
      simp [addWord]

/-- The arguments list some options and words, and the options are all different, also from
those before them. -/
def Adds (options : List OptionName) (p : Parsed) (args : List String) (q : Parsed) : Prop :=
  ∃ os ws, Listed options args os ws ∧ ((p.options ++ os).map Prod.fst).Nodup ∧
    q = { options := p.options ++ os, words := p.words ++ ws }

/-- An option that is spelled in front of the other arguments is read first. -/
theorem read_option {front args : List String} {o : OptionName} {value : String}
    (h : Spelled options front (o, value)) :
    Parsed.read options p (front ++ args) =
      (p.addOption o value >>= fun q => Parsed.read options q args) := by
  obtain ⟨ho, s, rfl, hs⟩ | ⟨ho, hvalue, s, rfl, hs⟩ | ⟨ho, rfl, s, rfl, hs⟩ := spelled_iff.mp h
  · rw [List.singleton_append, Parsed.read, hs]
    simp only [ho, if_true]
  · rw [List.cons_append, List.singleton_append, Parsed.read, hs]
    simp only [ho, if_true, hvalue, Bool.false_eq_true, if_false]
  · rw [List.singleton_append, Parsed.read, hs]
    simp only [ho, Bool.false_eq_true, if_false]

theorem read_of_adds {args : List String} (h : Adds options p args q) :
    Parsed.read options p args = .ok q := by
  obtain ⟨os, ws, hlisted, hnodup, rfl⟩ := h
  induction hlisted generalizing p with
  | nil => simp [Parsed.read]
  | @word s args os ws hs _ ih =>
      rw [Parsed.read, Argument.of_eq_word_iff.mpr ⟨rfl, hs⟩]
      show Parsed.read options (p.addWord s) args = _
      rw [ih (p := p.addWord s) hnodup]
      simp [addWord]
  | @option front args o os ws hspelled _ ih =>
      have hnew : o.1 ∉ p.options.map Prod.fst := by
        rw [List.map_append, List.map_cons, List.nodup_append] at hnodup
        exact fun hmem => hnodup.2.2 o.1 hmem o.1 List.mem_cons_self rfl
      rw [read_option hspelled, addOption_eq_ok_iff.mpr ⟨hnew, rfl⟩]
      show Parsed.read options { p with options := p.options ++ [o] } args = _
      rw [ih (by simpa using hnodup)]
      simp
  | separator ws =>
      rw [Parsed.read, Argument.of_eq_separator_iff.mpr rfl]
      simp only
      rw [foldl_addWord, List.append_nil]

theorem Adds.option {front args : List String} {o : OptionName} {value : String}
    (hspelled : Spelled options front (o, value)) (hp : (p.options.map Prod.fst).Nodup)
    (ih : ∀ p' : Parsed, (p'.options.map Prod.fst).Nodup → Parsed.read options p' args = .ok q →
      Adds options p' args q)
    (h : (p.addOption o value >>= fun p' => Parsed.read options p' args) = .ok q) :
    Adds options p (front ++ args) q := by
  obtain ⟨p', hadd, hread⟩ := bind_eq_ok.mp h
  obtain ⟨hnew, rfl⟩ := addOption_eq_ok_iff.mp hadd
  have hnodup : ((p.options ++ [(o, value)]).map Prod.fst).Nodup := by
    rw [List.map_append, List.nodup_append]
    refine ⟨hp, by simp, fun o' hmem o'' hsame heq => hnew ?_⟩
    have ho : o' = o := heq.trans (List.mem_singleton.mp hsame)
    exact ho ▸ hmem
  obtain ⟨os, ws, hlisted, hnodup, rfl⟩ := ih _ hnodup hread
  refine ⟨(o, value) :: os, ws, .option hspelled hlisted, by simpa using hnodup, by simp⟩

/-- Arguments are read if they list options that are all different. -/
theorem read_eq_ok_iff {args : List String} (hp : (p.options.map Prod.fst).Nodup) :
    Parsed.read options p args = .ok q ↔ Adds options p args q := by
  refine ⟨fun h => ?_, read_of_adds⟩
  induction p, args using Parsed.read.induct options with
  | case1 p =>
      rw [Parsed.read] at h
      cases h
      exact ⟨[], [], .nil, by rwa [List.append_nil], by rw [List.append_nil, List.append_nil]⟩
  | case2 p s args hs =>
      rw [Parsed.read, hs] at h
      cases h
  | case3 p s args hs =>
      rw [Parsed.read, hs] at h
      simp only [foldl_addWord] at h
      cases h
      rw [Argument.of_eq_separator_iff.mp hs]
      exact ⟨[], args, .separator args, by rwa [List.append_nil], by rw [List.append_nil]⟩
  | case4 p s args w hs ih =>
      rw [Parsed.read, hs] at h
      obtain ⟨rfl, hword⟩ := Argument.of_eq_word_iff.mp hs
      obtain ⟨os, ws, hlisted, hnodup, rfl⟩ := ih hp h
      exact ⟨os, w :: ws, .word hword hlisted, hnodup, by simp [addWord]⟩
  | case5 p s args o value hs ho ih =>
      rw [Parsed.read, hs] at h
      simp only [ho, if_true] at h
      exact .option (spelled_iff.mpr (.inl ⟨ho, s, rfl, hs⟩)) hp (fun p' hp' => ih p' hp') h
  | case6 p s args o value hs ho =>
      rw [Parsed.read, hs] at h
      simp only [ho] at h
      cases h
  | case7 p s o hs ho =>
      rw [Parsed.read, hs] at h
      simp only [ho, if_true] at h
      cases h
  | case8 p s o hs ho value args hvalue =>
      rw [Parsed.read, hs] at h
      simp only [ho, if_true, hvalue] at h
      cases h
  | case9 p s o hs ho value args hvalue ih =>
      rw [Parsed.read, hs] at h
      simp only [ho, if_true, hvalue] at h
      exact .option (spelled_iff.mpr (.inr (.inl ⟨ho, by simpa using hvalue, s, rfl, hs⟩))) hp
        (fun p' hp' => ih p' hp') h
  | case10 p s args o hs ho ih =>
      rw [Parsed.read, hs] at h
      simp only [ho] at h
      exact .option (spelled_iff.mpr (.inr (.inr ⟨by simpa using ho, rfl, s, rfl, hs⟩))) hp
        (fun p' hp' => ih p' hp') h

/-- The option is set on the command line or, if it is not, in the environment. -/
theorem failFast_eq_ok_iff {env : Environment} {b : Bool} :
    p.failFast env = .ok b ↔ FailFast env p.options b := by
  constructor
  · intro h
    unfold Parsed.failFast at h
    split at h
    case isTrue hmem =>
      cases h
      exact .option (has_iff.mp hmem)
    case isFalse hmem =>
      rw [has_iff] at hmem
      split at h
      case h_1 henv =>
        cases h
        exact .unset hmem henv
      case h_2 henv =>
        cases h
        exact .on hmem henv
      case h_3 henv =>
        cases h
        exact .off hmem henv
      case h_4 => cases h
  · intro h
    cases h with
    | option hmem => rw [Parsed.failFast, if_pos (has_iff.mpr hmem)]
    | on hmem henv =>
        rw [Parsed.failFast, if_neg (mt has_iff.mp hmem), henv]
        rfl
    | off hmem henv =>
        rw [Parsed.failFast, if_neg (mt has_iff.mp hmem), henv]
        rfl
    | unset hmem henv => rw [Parsed.failFast, if_neg (mt has_iff.mp hmem), henv]

/-- An option that is given once has one value. -/
theorem lookup_eq_some_iff_mem {o : OptionName} {value : String}
    (hp : (p.options.map Prod.fst).Nodup) :
    p.options.lookup o = some value ↔ (o, value) ∈ p.options := by
  rw [List.lookup_eq_some_iff]
  constructor
  · intro ⟨front, back, hp, _⟩
    rw [hp]
    exact List.mem_append_right _ List.mem_cons_self
  · intro hmem
    obtain ⟨front, back, hsplit⟩ := List.append_of_mem hmem
    refine ⟨front, back, hsplit, fun e he => ?_⟩
    rw [hsplit, List.map_append, List.map_cons, List.nodup_append] at hp
    exact bne_iff_ne.mpr (hp.2.2 e.1 (List.mem_map_of_mem he) o List.mem_cons_self).symm

/-- The output is the path that is given, if one is given. -/
theorem output_eq_ok_iff {output : Option String} (hp : (p.options.map Prod.fst).Nodup) :
    p.output = .ok output ↔ Output p.options output := by
  have hnone : p.options.lookup .output = none ↔ .output ∉ p.options.map Prod.fst := by
    rw [← has_iff, has, Bool.not_eq_true, Option.isSome_eq_false_iff, Option.isNone_iff_eq_none]
  constructor
  · intro h
    unfold Parsed.output at h
    split at h
    case h_1 => cases h
    case h_2 hne =>
      cases h
      cases hlookup : p.options.lookup .output with
      | none => exact .none (hnone.mp hlookup)
      | some path =>
          refine .file ((lookup_eq_some_iff_mem hp).mp hlookup) (fun hempty => hne ?_)
          rw [hlookup, hempty]
  · intro h
    cases h with
    | none hmem => rw [Parsed.output, hnone.mpr hmem]
    | file hmem hne =>
        rw [Parsed.output, (lookup_eq_some_iff_mem hp).mpr hmem]
        split
        case h_1 hempty => exact absurd (Option.some.inj hempty) hne
        case h_2 => rfl

end Parsed

/-- A dash is the standard input, and any other text is a path. -/
theorem Source.ofArgument_eq_ok_iff {s : String} {manifest : Source} :
    Source.ofArgument s = .ok manifest ↔ manifest.Named s := by
  constructor
  · intro h
    unfold Source.ofArgument at h
    split at h
    case isTrue => cases h
    case isFalse hne =>
      split at h
      case isTrue hdash =>
        cases h
        exact hdash ▸ .stdin
      case isFalse hdash =>
        cases h
        exact .file hne hdash
  · intro h
    cases h with
    | stdin => rfl
    | file hne hdash => rw [Source.ofArgument, if_neg hne, if_neg hdash]

/-! ## Command lines -/

section

variable {env : Environment} {args : List String} {c : Command}

/-- The words have been used when the command is made. -/
theorem CommandName.withOptions_words (name : CommandName) (manifest : Source) (p : Parsed) :
    name.withOptions env manifest p = name.withOptions env manifest { options := p.options } := by
  cases name with
  | check => rfl
  | render => rfl
  | routes => rfl
  | generate => rfl

/-- A command is made of one manifest and of options that go with its name. -/
theorem CommandName.command_eq_ok_iff_given {name : CommandName} :
    name.command env args = .ok c ↔ ∃ os manifest, name.Given args os manifest ∧
      name.withOptions env manifest { options := os } = .ok c := by
  constructor
  · intro h
    obtain ⟨p, hread, h⟩ := bind_eq_ok.mp h
    obtain ⟨os, ws, hlisted, hnodup, rfl⟩ :=
      (Parsed.read_eq_ok_iff (p := {}) List.nodup_nil).mp hread
    split at h
    case h_1 s hs =>
      obtain ⟨manifest, hmanifest, h⟩ := bind_eq_ok.mp h
      have hws : ws = [s] := hs
      have hnamed := Source.ofArgument_eq_ok_iff.mp hmanifest
      rw [withOptions_words] at h
      exact ⟨os, manifest, ⟨hnodup, s, hws ▸ hlisted, hnamed⟩, h⟩
    case h_2 => cases h
  · intro ⟨os, manifest, ⟨hnodup, s, hlisted, hnamed⟩, h⟩
    have hread : Parsed.read name.options {} args = .ok { options := os, words := [s] } :=
      Parsed.read_of_adds ⟨os, [s], hlisted, hnodup, rfl⟩
    refine bind_eq_ok.mpr ⟨_, hread, ?_⟩
    refine bind_eq_ok.mpr ⟨manifest, Source.ofArgument_eq_ok_iff.mpr hnamed, ?_⟩
    rw [withOptions_words]
    exact h

/-- A command is made exactly as it is called. -/
theorem CommandName.command_eq_ok_iff {name : CommandName} :
    name.command env args = .ok c ↔ name.Called env args c := by
  rw [command_eq_ok_iff_given]
  constructor
  · intro ⟨os, manifest, hgiven, h⟩
    cases name with
    | check =>
        obtain ⟨failFast, hfail, h⟩ := bind_eq_ok.mp h
        cases h
        rw [Parsed.has_eq_decide]
        exact .check hgiven (Parsed.failFast_eq_ok_iff.mp hfail)
    | render =>
        cases h
        exact .render hgiven
    | routes =>
        cases h
        exact .routes hgiven
    | generate =>
        obtain ⟨output, houtput, h⟩ := bind_eq_ok.mp h
        cases h
        exact .generate hgiven ((Parsed.output_eq_ok_iff hgiven.1).mp houtput)
  · intro h
    cases h with
    | @check os manifest failFast hgiven hfail =>
        refine ⟨os, manifest, hgiven, ?_⟩
        rw [← Parsed.has_eq_decide (p := { options := os })]
        exact bind_eq_ok.mpr ⟨failFast, Parsed.failFast_eq_ok_iff.mpr hfail, rfl⟩
    | @render os manifest hgiven => exact ⟨os, manifest, hgiven, rfl⟩
    | @routes os manifest hgiven => exact ⟨os, manifest, hgiven, rfl⟩
    | @generate os manifest output hgiven houtput =>
        refine ⟨os, manifest, hgiven, ?_⟩
        exact bind_eq_ok.mpr ⟨output, (Parsed.output_eq_ok_iff hgiven.1).mpr houtput, rfl⟩

theorem of_of_asksForVersion {s : String} (h : asksForVersion s = true) :
    Argument.of [.log] s = .unknown := by
  unfold asksForVersion at h
  split at h
  case h_1 cs hs =>
    unfold Argument.of
    rw [hs]
    rfl
  case h_2 =>
    rw [eq_of_beq h]
    rfl

theorem asksForVersion_eq_false {s : String} (h : Argument.of [.log] s ≠ .unknown) :
    asksForVersion s = false :=
  Bool.eq_false_iff.mpr fun hversion => h (of_of_asksForVersion hversion)

theorem looksLikeOption_of_name {s : String} {name : CommandName}
    (h : CommandName.ofName? s = some name) : looksLikeOption s = false := by
  unfold CommandName.ofName? at h
  split at h
  · rfl
  · rfl
  · rfl
  · rfl
  · cases h

/-- A command that is named right away is found, whether a filter has been given or not. -/
theorem parseFrom_of_named {logged : Bool} (h : Command.Named env args c) :
    Command.parseFrom env logged args = .ok c := by
  unfold Command.parseFrom
  cases h with
  | version args hversion => simp only [hversion, if_true]
  | @called s args name c hname hcalled =>
      have hword : Argument.of [.log] s = .word s :=
        Argument.of_eq_word_iff.mpr ⟨rfl, looksLikeOption_of_name hname⟩
      have hversion : asksForVersion s = false :=
        asksForVersion_eq_false (by simp [hword])
      simp only [hversion, Bool.false_eq_true, if_false, hword, hname]
      exact CommandName.command_eq_ok_iff.mpr hcalled

/-- In front of a command there is at most a filter for the log. -/
theorem named_or_logged {logged : Bool} (h : Command.parseFrom env logged args = .ok c) :
    Command.Named env args c ∨ logged = false ∧ ∃ front rest filter, args = front ++ rest ∧
      Spelled [.log] front (.log, filter) ∧ Command.parseFrom env true rest = .ok c := by
  unfold Command.parseFrom at h
  split at h
  case h_1 => cases h
  case h_2 s args =>
    split at h
    case isTrue hversion =>
      cases h
      exact .inl (.version args hversion)
    case isFalse =>
      split at h
      case h_1 o filter hs =>
        split at h
        case isTrue => cases h
        case isFalse hlogged =>
          have ho : o = .log := List.mem_singleton.mp (Argument.of_eq_option_iff.mp hs).1
          cases ho
          exact .inr ⟨by simpa using hlogged, [s], args, filter, rfl,
            spelled_iff.mpr (.inl ⟨rfl, s, rfl, hs⟩), h⟩
      case h_2 o hs =>
        have ho : o = .log := List.mem_singleton.mp (Argument.of_eq_option_iff.mp hs).1
        cases ho
        split at h
        case h_1 => cases h
        case h_2 filter args =>
          split at h
          case isTrue => cases h
          case isFalse hfilter =>
            rw [Bool.or_eq_true, not_or, Bool.not_eq_true, Bool.not_eq_true] at hfilter
            exact .inr ⟨hfilter.1, [s, filter], args, filter, rfl,
              spelled_iff.mpr (.inr (.inl ⟨rfl, hfilter.2, s, rfl, hs⟩)), h⟩
      case h_3 w hs =>
        obtain ⟨rfl, _⟩ := Argument.of_eq_word_iff.mp hs
        split at h
        case h_1 name hname =>
          exact .inl (.called hname (CommandName.command_eq_ok_iff.mp h))
        case h_2 => cases h
      case h_4 => cases h

/-- A filter for the log is passed over once. -/
theorem parseFrom_of_logged {front : List String} {filter : String}
    (hspelled : Spelled [.log] front (.log, filter)) :
    Command.parseFrom env false (front ++ args) = Command.parseFrom env true args := by
  have hversion {s : String} {v : Option String} (hs : Argument.of [.log] s = .option .log v) :
      asksForVersion s = false :=
    asksForVersion_eq_false (by simp [hs])
  rw [Command.parseFrom.eq_def]
  obtain ⟨_, s, rfl, hs⟩ | ⟨_, hfilter, s, rfl, hs⟩ | ⟨ho, _⟩ := spelled_iff.mp hspelled
  · simp only [List.singleton_append, hversion hs, hs, Bool.false_eq_true, if_false]
  · simp only [List.cons_append, List.nil_append, hversion hs, hs, hfilter, Bool.or_self,
      Bool.false_eq_true, if_false]
  · cases ho

/-- Arguments are understood exactly if they are those of a command line. -/
theorem Command.parse_eq_ok_iff : Command.parse env args = .ok c ↔ Command.Line env args c := by
  constructor
  · intro h
    obtain hnamed | ⟨_, front, rest, filter, rfl, hspelled, hrest⟩ := named_or_logged h
    · exact .plain hnamed
    · obtain hnamed | ⟨hlogged, _⟩ := named_or_logged hrest
      · exact .logged hspelled hnamed
      · cases hlogged
  · intro h
    cases h with
    | plain hnamed => exact parseFrom_of_named hnamed
    | logged hspelled hnamed =>
        rw [Command.parse, parseFrom_of_logged hspelled]
        exact parseFrom_of_named hnamed

end

end VerifiedLinks.CommandLine
