/-
  The command line of a child (`buildArgv` of the console, `parseCommand` of the command line tool).

  * `inline_argv`: a string option takes the next argument behind an equals sign, whatever it is;
  * `parse_argv`: what is built of words, options with operands, and flags is read as it was;
  * `argv_roundtrip`: so is every request none of whose operands is `--`.
-/
import Echolet.Lib.ParseArgs
import Echolet.Tui.Shell

namespace Echolet.Tui

open ParseArgs (OptionType OptionValue Parsed Token long withValue parseArgs IsWord IsName typeOf argvTokens
  argvParsed parseArgs_argv)

/-! ## The parser -/

def cliOptions : List (JsString × OptionType) :=
  [(js "profile", .string), (js "json", .boolean), (js "relay-url", .string),
    (js "store-key-env", .string), (js "out", .string), (js "from", .string), (js "yes", .boolean),
    (js "to", .string), (js "text", .string), (js "message-id", .string), (js "with", .string)]

def commandOptions : List (JsString × List JsString) :=
  [(js "init", [js "profile", js "json", js "relay-url", js "store-key-env"]),
    (js "contact export", [js "profile", js "json", js "out"]),
    (js "contact import", [js "profile", js "json", js "from", js "yes"]),
    (js "relay publish", [js "profile", js "json"]),
    (js "send", [js "profile", js "json", js "to", js "text", js "message-id"]),
    (js "poll", [js "profile", js "json"]),
    (js "history", [js "profile", js "json", js "with"]),
    (js "doctor", [js "profile", js "json"])]

def stringOptions : List JsString := (cliOptions.filter (·.2 = .string)).map (·.1)

def optionSeparator : JsString := js "--"

/-- An argument that takes the next one as its value. -/
def isRewritable (arg value : JsString) : Bool :=
  decide (optionSeparator <+: arg ∧ ParseArgs.equals ∉ arg ∧
    stringOptions.contains (arg.drop 2) = true ∧ value ≠ optionSeparator)

def inlineStringOptionValues : List JsString → List JsString
  | [] => []
  | [arg] => [arg]
  | arg :: value :: rest =>
    if arg = optionSeparator then arg :: value :: rest
    else if isRewritable arg value then
      (arg ++ ParseArgs.equals :: value) :: inlineStringOptionValues rest
    else arg :: inlineStringOptionValues (value :: rest)

/-- `String.prototype.trim` -/
def trimUnits (units : JsString) : JsString :=
  let blank (u : ℕ) : Bool := isBlank (Char.ofNat u)
  ((units.dropWhile blank).reverse.dropWhile blank).reverse

structure ParsedCommand where
  command : JsString
  values : List (JsString × OptionValue)
  deriving DecidableEq

/-- The names of the options that were given, in order. -/
def optionNames (tokens : List Token) : List JsString := tokens.filterMap fun
  | .option name _ _ => some name
  | _ => none

/-- `parseCommand`; nothing where the input is refused -/
def parseCommand (rawArgs : List JsString) : Option ParsedCommand := do
  let parsed ← parseArgs cliOptions (inlineStringOptionValues rawArgs)
  let command := [32].intercalate parsed.positionals
  let allowed ← commandOptions.lookup command
  let names := optionNames parsed.tokens
  if ¬ names.Nodup ∨ ¬ names ⊆ allowed then none
  else match parsed.values.lookup (js "profile") with
    | some (.string profile) => if trimUnits profile = [] then none else some ⟨command, parsed.values⟩
    | _ => none

/-! ## The builder -/

def buildArgv : CliRequest → List JsString
  | .init profileDir relayUrl storeKeyEnv =>
    [js "init", js "--relay-url", relayUrl, js "--store-key-env", storeKeyEnv, js "--profile", profileDir,
      js "--json"]
  | .contactExport profileDir out =>
    [js "contact", js "export", js "--out", out, js "--profile", profileDir, js "--json"]
  | .contactImport profileDir source =>
    [js "contact", js "import", js "--from", source, js "--profile", profileDir, js "--json"]
  | .relayPublish profileDir => [js "relay", js "publish", js "--profile", profileDir, js "--json"]
  | .send profileDir recipient _ messageId =>
    [js "send", js "--to", recipient] ++
      (match messageId with | none => [] | some id => [js "--message-id", id]) ++
      [js "--profile", profileDir, js "--json"]
  | .poll profileDir => [js "poll", js "--profile", profileDir, js "--json"]
  | .history profileDir contactIdentityId =>
    [js "history", js "--with", contactIdentityId, js "--profile", profileDir, js "--json"]
  | .doctor profileDir => [js "doctor", js "--profile", profileDir, js "--json"]

/-- The options of a request with their operands, in order; the body of a message is none. -/
def CliRequest.options : CliRequest → List (JsString × JsString)
  | .init profileDir relayUrl storeKeyEnv =>
    [(js "relay-url", relayUrl), (js "store-key-env", storeKeyEnv), (js "profile", profileDir)]
  | .contactExport profileDir out => [(js "out", out), (js "profile", profileDir)]
  | .contactImport profileDir source => [(js "from", source), (js "profile", profileDir)]
  | .send profileDir recipient _ messageId =>
    (js "to", recipient) :: (messageId.map fun id => (js "message-id", id)).toList ++
      [(js "profile", profileDir)]
  | .history profileDir contactIdentityId =>
    [(js "with", contactIdentityId), (js "profile", profileDir)]
  | .relayPublish profileDir | .poll profileDir | .doctor profileDir => [(js "profile", profileDir)]

/-- The words of a command. -/
def CliCommand.words : CliCommand → List JsString
  | .init => [js "init"]
  | .contactExport => [js "contact", js "export"]
  | .contactImport => [js "contact", js "import"]
  | .relayPublish => [js "relay", js "publish"]
  | .send => [js "send"]
  | .poll => [js "poll"]
  | .history => [js "history"]
  | .doctor => [js "doctor"]

/-- Words, options each followed by its operand, and flags. -/
def argv (words : List JsString) (pairs : List (JsString × JsString)) (flags : List JsString) :
    List JsString :=
  words ++ pairs.flatMap (fun o => [long o.1, o.2]) ++ flags.map long

theorem buildArgv_eq (r : CliRequest) : buildArgv r = argv r.command.words r.options [js "json"] := by
  cases r with
  | send profileDir recipient text messageId => cases messageId <;> rfl
  | _ => rfl

/-! ## Reading it back -/

theorem inline_cons {arg : JsString} (hne : arg ≠ optionSeparator)
    (hno : ∀ value, isRewritable arg value = false) (rest : List JsString) :
    inlineStringOptionValues (arg :: rest) = arg :: inlineStringOptionValues rest := by
  cases rest with
  | nil => rfl
  | cons value rest =>
    rw [inlineStringOptionValues, if_neg hne, hno, if_neg Bool.false_ne_true]

/-- An argument that is copied as it is. -/
theorem copied {arg : JsString} (h : arg.drop 2 ∉ stringOptions ∨ ¬ optionSeparator <+: arg) :
    ∀ value, isRewritable arg value = false := by
  intro value
  rw [isRewritable, decide_eq_false_iff_not]
  rintro ⟨hdashes, -, hmem, -⟩
  exact h.elim (fun hno => hno (List.contains_iff_mem.1 hmem)) fun hno => hno hdashes

/-- **A string option takes the next argument**, whatever it looks like. -/
theorem inline_option {name value : JsString} (hname : IsName name) (hstring : name ∈ stringOptions)
    (hvalue : value ≠ optionSeparator) (rest : List JsString) :
    inlineStringOptionValues (long name :: value :: rest) =
      withValue name value :: inlineStringOptionValues rest := by
  have hne : long name ≠ optionSeparator := by
    intro heq
    exact hname.1 (List.cons.inj (List.cons.inj heq).2).2
  have hequals : ParseArgs.equals ∉ long name := by
    simp only [long, ParseArgs.dash, ParseArgs.equals, List.mem_cons, not_or]
    exact ⟨by decide, by decide, hname.2⟩
  have hrewritable : isRewritable (long name) value = true :=
    decide_eq_true ⟨⟨name, rfl⟩, hequals, List.contains_iff_mem.2 hstring, hvalue⟩
  rw [inlineStringOptionValues, if_neg hne, if_pos hrewritable]
  rfl

theorem inline_argv {words flags : List JsString} {pairs : List (JsString × JsString)}
    (hwords : ∀ word ∈ words, IsWord word)
    (hpairs : ∀ o ∈ pairs, IsName o.1 ∧ o.1 ∈ stringOptions ∧ o.2 ≠ optionSeparator)
    (hflags : ∀ name ∈ flags, IsName name ∧ name ∉ stringOptions) :
    inlineStringOptionValues (argv words pairs flags) =
      words ++ pairs.map (fun o => withValue o.1 o.2) ++ flags.map long := by
  have hlast : inlineStringOptionValues (flags.map long) = flags.map long := by
    induction flags with
    | nil => rfl
    | cons name flags ih =>
      rw [List.forall_mem_cons] at hflags
      have hne : long name ≠ optionSeparator := fun heq =>
        hflags.1.1.1 (List.cons.inj (List.cons.inj heq).2).2
      rw [List.map_cons, inline_cons hne (copied (Or.inl hflags.1.2)), ih hflags.2]
  have hmiddle : inlineStringOptionValues (pairs.flatMap (fun o => [long o.1, o.2]) ++ flags.map long) =
      pairs.map (fun o => withValue o.1 o.2) ++ flags.map long := by
    induction pairs with
    | nil => exact hlast
    | cons o pairs ih =>
      rw [List.forall_mem_cons] at hpairs
      obtain ⟨hname, hstring, hvalue⟩ := hpairs.1
      have hstep := inline_option hname hstring hvalue
        (pairs.flatMap (fun o => [long o.1, o.2]) ++ flags.map long)
      rw [ih hpairs.2] at hstep
      exact hstep
  rw [argv, List.append_assoc, List.append_assoc, ← hmiddle]
  induction words with
  | nil => rfl
  | cons word words ih =>
    rw [List.forall_mem_cons] at hwords
    have hdash : ¬ optionSeparator <+: word := by
      rintro ⟨rest, rfl⟩
      exact hwords.1 rfl
    have hne : word ≠ optionSeparator := fun heq => hdash (heq ▸ List.prefix_refl _)
    rw [List.cons_append, inline_cons hne (copied (Or.inr hdash)), ih hwords.2]
    rfl

theorem optionNames_argv (words : List JsString) (pairs : List (JsString × JsString))
    (flags : List JsString) : optionNames (argvTokens words pairs flags) = pairs.map (·.1) ++ flags := by
  have hwords : optionNames (words.map Token.positional) = [] := by
    induction words with
    | nil => rfl
    | cons word words ih => exact ih
  have hpairs : optionNames (pairs.map fun o => Token.option o.1 (some o.2) true) = pairs.map (·.1) := by
    induction pairs with
    | nil => rfl
    | cons o pairs ih => exact congrArg (o.1 :: ·) ih
  have hflags : optionNames (flags.map fun name => Token.option name none false) = flags := by
    induction flags with
    | nil => rfl
    | cons name flags ih => exact congrArg (name :: ·) ih
  unfold optionNames at *
  rw [argvTokens, List.filterMap_append, List.filterMap_append, hwords, hpairs, hflags, List.nil_append]

/-- The values of a request. -/
def CliRequest.values (r : CliRequest) : List (JsString × OptionValue) :=
  r.options.map (fun o => (o.1, .string o.2)) ++ [(js "json", .flag)]

/-- No operand of a request is `--`, and the profile directory is not blank. -/
def CliRequest.Plain (r : CliRequest) : Prop :=
  (∀ o ∈ r.options, o.2 ≠ optionSeparator) ∧ trimUnits r.profileDir ≠ []

instance : DecidablePred CliRequest.Plain := fun _ => inferInstanceAs (Decidable (_ ∧ _))

/-- What is fixed of a command line: its words and the names of its options. -/
structure Declared (command : CliCommand) (names : List JsString) : Prop where
  words : ∀ word ∈ command.words, IsWord word
  text : [32].intercalate command.words = command.text
  options : ∀ name ∈ names, IsName name ∧ name ∈ stringOptions ∧ typeOf cliOptions name = some .string
  nodup : (names ++ [js "json"]).Nodup
  allowed : ∃ allowed, commandOptions.lookup command.text = some allowed ∧ names ++ [js "json"] ⊆ allowed

theorem Declared.of_check {command : CliCommand} {names : List JsString}
    (h : (∀ word ∈ command.words, IsWord word) ∧ [32].intercalate command.words = command.text ∧
      (∀ name ∈ names, IsName name ∧ name ∈ stringOptions ∧ typeOf cliOptions name = some .string) ∧
      (names ++ [js "json"]).Nodup ∧ (commandOptions.lookup command.text).any
        (fun allowed => decide (names ++ [js "json"] ⊆ allowed)) = true) : Declared command names := by
  obtain ⟨hwords, htext, hoptions, hnodup, hallowed⟩ := h
  obtain ⟨allowed, hlookup, hsubset⟩ := (Option.any_eq_true _ _).1 hallowed
  exact ⟨hwords, htext, hoptions, hnodup, allowed, hlookup, of_decide_eq_true hsubset⟩

/-- **Every request is of declared options**, each allowed for its command. -/
theorem CliRequest.declared (r : CliRequest) : Declared r.command (r.options.map (·.1)) := by
  cases r with
  | send profileDir recipient text messageId =>
    cases messageId with
    | none =>
      show Declared .send [js "to", js "profile"]
      exact .of_check (by decide)
    | some id =>
      show Declared .send [js "to", js "message-id", js "profile"]
      exact .of_check (by decide)
  | init =>
    show Declared .init [js "relay-url", js "store-key-env", js "profile"]
    exact .of_check (by decide)
  | contactExport =>
    show Declared .contactExport [js "out", js "profile"]
    exact .of_check (by decide)
  | contactImport =>
    show Declared .contactImport [js "from", js "profile"]
    exact .of_check (by decide)
  | relayPublish =>
    show Declared .relayPublish [js "profile"]
    exact .of_check (by decide)
  | poll =>
    show Declared .poll [js "profile"]
    exact .of_check (by decide)
  | history =>
    show Declared .history [js "with", js "profile"]
    exact .of_check (by decide)
  | doctor =>
    show Declared .doctor [js "profile"]
    exact .of_check (by decide)

theorem lookup_map_string (pairs : List (JsString × JsString)) (rest : List (JsString × OptionValue))
    {name value : JsString} (h : (name, value) ∈ pairs) (hnodup : (pairs.map (·.1)).Nodup) :
    (pairs.map (fun o => (o.1, OptionValue.string o.2)) ++ rest).lookup name = some (.string value) := by
  induction pairs with
  | nil => cases h
  | cons o pairs ih =>
    rw [List.map_cons, List.nodup_cons] at hnodup
    rw [List.map_cons, List.cons_append, List.lookup_cons]
    rcases List.mem_cons.1 h with rfl | h
    · simp
    · have hne : name ≠ o.1 := by
        rintro rfl
        exact hnodup.1 (List.mem_map.2 ⟨_, h, rfl⟩)
      rw [beq_false_of_ne hne]
      exact ih h hnodup.2

theorem CliRequest.profile_mem (r : CliRequest) : (js "profile", r.profileDir) ∈ r.options := by
  cases r <;> simp [CliRequest.options, CliRequest.profileDir]

/-- **Round trip**: what is built of a request is read as its command, with every operand and every
    option as it was. -/
theorem argv_roundtrip {r : CliRequest} (h : r.Plain) :
    parseCommand (buildArgv r) = some ⟨r.command.text, r.values⟩ := by
  have hd := r.declared
  have hname : ∀ o ∈ r.options, o.1 ∈ r.options.map (·.1) := fun o ho => List.mem_map.2 ⟨o, ho, rfl⟩
  have hjson : ∀ name ∈ [js "json"], IsName name ∧ name ∉ stringOptions ∧
      typeOf cliOptions name = some .boolean := by decide
  have hinline := inline_argv hd.words
    (fun o ho => ⟨(hd.options _ (hname o ho)).1, (hd.options _ (hname o ho)).2.1, h.1 o ho⟩)
    fun name hmem => ⟨(hjson name hmem).1, (hjson name hmem).2.1⟩
  have hparsed := parseArgs_argv hd.words
    (fun o ho => ⟨(hd.options _ (hname o ho)).1, (hd.options _ (hname o ho)).2.2⟩)
    (fun name hmem => ⟨(hjson name hmem).1, (hjson name hmem).2.2⟩) hd.nodup
  obtain ⟨allowed, hlookup, hsubset⟩ := hd.allowed
  have hprofile : (argvParsed r.command.words r.options [js "json"]).values.lookup (js "profile") =
      some (.string r.profileDir) :=
    lookup_map_string _ _ r.profile_mem (List.nodup_append.1 hd.nodup).1
  have hnames : optionNames (argvParsed r.command.words r.options [js "json"]).tokens =
      r.options.map (·.1) ++ [js "json"] := optionNames_argv _ _ _
  have hpositionals : [32].intercalate (argvParsed r.command.words r.options [js "json"]).positionals =
      r.command.text := hd.text
  unfold parseCommand
  simp only [buildArgv_eq, hinline, hparsed, Option.bind_eq_bind, Option.bind_some, hpositionals, hlookup,
    hnames, hprofile, hd.nodup, hsubset, not_true_eq_false, or_self, if_false, h.2]
  rfl

/-- A message to an identity that begins with a dash, from a directory that looks like an option. -/
theorem argv_roundtrip_dashes :
    parseCommand (buildArgv (.send (js "--profile=x y") (js "-Ab=") (js "--json") none)) =
      some ⟨js "send", [(js "to", .string (js "-Ab=")), (js "profile", .string (js "--profile=x y")),
        (js "json", .flag)]⟩ :=
  argv_roundtrip (by decide)

end Echolet.Tui
