/-
  Command lines as `util.parseArgs` reads them in strict mode, with positionals and tokens.

  An argument is a list of UTF-16 units.  No option has a letter for its short form, so an
  argument with one dash names an option that is not declared.

  * `parseArgs_argv`: words, then options with their values behind an equals sign, then flags, are
    read as they stand there.
-/
import Mathlib.Data.List.Nodup
import Mathlib.Tactic.Common

namespace Echolet

namespace ParseArgs

def dash : ℕ := 45

def equals : ℕ := 61

inductive OptionType
  | string
  | boolean
  deriving DecidableEq

inductive OptionValue
  | string (value : List ℕ)
  | flag
  deriving DecidableEq

inductive Token
  | option (name : List ℕ) (value : Option (List ℕ)) (inlineValue : Bool)
  | terminator
  | positional (value : List ℕ)
  deriving DecidableEq

/-- An option as it is written. -/
def long (name : List ℕ) : List ℕ := dash :: dash :: name

/-- An option with its value behind an equals sign. -/
def withValue (name value : List ℕ) : List ℕ := long name ++ equals :: value

/-- A long option with no equals sign behind its first letter. -/
def isLoneLongOption (arg : List ℕ) : Bool :=
  decide (2 < arg.length ∧ long [] <+: arg ∧ equals ∉ arg.drop 3)

/-- The token of an argument that takes no value from the next one. -/
def argToken (arg : List ℕ) : Token :=
  if isLoneLongOption arg then .option (arg.drop 2) none false
  else if long [] <+: arg then
    .option ((arg.drop 2).takeWhile (· != equals)) (some ((arg.drop 2).dropWhile (· != equals)).tail) true
  else match arg with
    | first :: letter :: _ => if first = dash then .option [letter] none false else .positional arg
    | _ => .positional arg

section
variable (options : List (List ℕ × OptionType))

def typeOf (name : List ℕ) : Option OptionType := (options.find? (·.1 == name)).map (·.2)

/-- A long option that takes the next argument as its value. -/
def takesNext (arg : List ℕ) : Bool :=
  isLoneLongOption arg && typeOf options (arg.drop 2) == some .string

def argsToTokens : List (List ℕ) → List Token
  | [] => []
  | [arg] => if arg = long [] then [.terminator] else [argToken arg]
  | arg :: next :: rest =>
    if arg = long [] then .terminator :: (next :: rest).map .positional
    else if takesNext options arg then .option (arg.drop 2) (some next) false :: argsToTokens rest
    else argToken arg :: argsToTokens (next :: rest)

/-- A value that looks like an option. -/
def isOptionLikeValue (value : List ℕ) : Bool := decide (1 < value.length ∧ value.head? = some dash)

/-- What the strict mode lets through. -/
def checkToken : Token → Bool
  | .option name value inlineValue => match typeOf options name with
    | none => false
    | some .string => value.any fun v => inlineValue || !isOptionLikeValue v
    | some .boolean => value.isNone
  | _ => true

/-- `storeOption`: a later value takes the place of an earlier one. -/
def storeOption (values : List (List ℕ × OptionValue)) (name : List ℕ) (value : OptionValue) :
    List (List ℕ × OptionValue) :=
  if values.any (·.1 == name) then values.map fun v => if v.1 = name then (name, value) else v
  else values ++ [(name, value)]

structure Parsed where
  values : List (List ℕ × OptionValue)
  positionals : List (List ℕ)
  tokens : List Token
  deriving DecidableEq

def store (parsed : Parsed) : Token → Parsed
  | .option name value _ =>
    { parsed with values := storeOption parsed.values name ((value.map .string).getD .flag) }
  | .positional value => { parsed with positionals := parsed.positionals ++ [value] }
  | .terminator => parsed

/-- `parseArgs`; nothing where it throws -/
def parseArgs (args : List (List ℕ)) : Option Parsed :=
  let tokens := argsToTokens options args
  if tokens.all (checkToken options) then some (tokens.foldl store ⟨[], [], tokens⟩) else none

end

/-! ## What is read -/

/-- A word that is no option. -/
def IsWord (word : List ℕ) : Prop := word.head? ≠ some dash

/-- A name with a letter, and no equals sign. -/
def IsName (name : List ℕ) : Prop := name ≠ [] ∧ equals ∉ name

instance : DecidablePred IsWord := fun _ => inferInstanceAs (Decidable (_ ≠ _))

instance : DecidablePred IsName := fun _ => inferInstanceAs (Decidable (_ ∧ _))

variable {options : List (List ℕ × OptionType)}

theorem argsToTokens_cons {arg : List ℕ} (hne : arg ≠ long []) (hnext : takesNext options arg = false)
    (rest : List (List ℕ)) :
    argsToTokens options (arg :: rest) = argToken arg :: argsToTokens options rest := by
  cases rest with
  | nil => simp [argsToTokens, hne]
  | cons next rest => rw [argsToTokens, if_neg hne, hnext, if_neg Bool.false_ne_true]

theorem lone_long {name : List ℕ} (h : IsName name) : isLoneLongOption (long name) = true := by
  obtain ⟨c, rest, rfl⟩ := List.exists_cons_of_ne_nil h.1
  have hrest : equals ∉ rest := fun hmem => h.2 (List.mem_cons_of_mem c hmem)
  simp [isLoneLongOption, long, hrest]

theorem not_lone_withValue {name value : List ℕ} (h : IsName name) :
    isLoneLongOption (withValue name value) = false := by
  obtain ⟨c, rest, rfl⟩ := List.exists_cons_of_ne_nil h.1
  simp [isLoneLongOption, withValue, long]

theorem token_word {word : List ℕ} (h : IsWord word) :
    argToken word = .positional word ∧ takesNext options word = false ∧ word ≠ long [] := by
  have hlong : ¬ long [] <+: word := by
    rintro ⟨rest, rfl⟩
    exact h rfl
  have hlone : isLoneLongOption word = false := by simp [isLoneLongOption, hlong]
  refine ⟨?_, by simp [takesNext, hlone], fun heq => hlong (heq ▸ List.prefix_refl _)⟩
  unfold argToken
  rw [hlone, if_neg Bool.false_ne_true, if_neg hlong]
  split
  · next first letter rest =>
    have hfirst : first ≠ dash := fun heq => h (by rw [heq]; rfl)
    rw [if_neg hfirst]
  · rfl

theorem token_withValue {name value : List ℕ} (h : IsName name) :
    argToken (withValue name value) = .option name (some value) true ∧
      takesNext options (withValue name value) = false ∧ withValue name value ≠ long [] := by
  have hlone := @not_lone_withValue name value h
  have hbefore : ∀ c ∈ name, (c != equals) = true := fun c hc =>
    bne_iff_ne.2 fun heq => h.2 (heq ▸ hc)
  refine ⟨?_, by simp [takesNext, hlone], by simp [withValue, long]⟩
  unfold argToken
  rw [hlone, if_neg Bool.false_ne_true, if_pos ⟨name ++ equals :: value, rfl⟩]
  have hdrop : (withValue name value).drop 2 = name ++ equals :: value := rfl
  rw [hdrop, List.takeWhile_append_of_pos hbefore, List.dropWhile_append_of_pos hbefore]
  simp [equals]

theorem token_flag {name : List ℕ} (h : IsName name) (htype : typeOf options name = some .boolean) :
    argToken (long name) = .option name none false ∧ takesNext options (long name) = false ∧
      long name ≠ long [] := by
  refine ⟨?_, ?_, ?_⟩
  · unfold argToken
    rw [lone_long h, if_pos rfl]
    rfl
  · have hdrop : (long name).drop 2 = name := rfl
    simp [takesNext, hdrop, htype]
  · intro heq
    exact h.1 (List.cons.inj (List.cons.inj heq).2).2

/-- The tokens of words, options with their values, and flags. -/
def argvTokens (words : List (List ℕ)) (pairs : List (List ℕ × List ℕ)) (flags : List (List ℕ)) :
    List Token :=
  words.map .positional ++ pairs.map (fun o => .option o.1 (some o.2) true) ++
    flags.map fun name => .option name none false

theorem argsToTokens_append {args : List (List ℕ)} {token : List ℕ → Token}
    (h : ∀ arg ∈ args, argToken arg = token arg ∧ takesNext options arg = false ∧ arg ≠ long [])
    (rest : List (List ℕ)) :
    argsToTokens options (args ++ rest) = args.map token ++ argsToTokens options rest := by
  induction args with
  | nil => rfl
  | cons arg args ih =>
    rw [List.forall_mem_cons] at h
    rw [List.cons_append, argsToTokens_cons h.1.2.2 h.1.2.1, h.1.1, ih h.2]
    rfl

theorem argsToTokens_argv {words flags : List (List ℕ)} {pairs : List (List ℕ × List ℕ)}
    (hwords : ∀ word ∈ words, IsWord word) (hpairs : ∀ o ∈ pairs, IsName o.1)
    (hflags : ∀ name ∈ flags, IsName name ∧ typeOf options name = some .boolean) :
    argsToTokens options (words ++ pairs.map (fun o => withValue o.1 o.2) ++ flags.map long) =
      argvTokens words pairs flags := by
  have hlast : argsToTokens options (flags.map long) =
      flags.map fun name => Token.option name none false := by
    induction flags with
    | nil => rfl
    | cons name flags ih =>
      rw [List.forall_mem_cons] at hflags
      obtain ⟨htoken, hnext, hne⟩ := token_flag hflags.1.1 hflags.1.2
      rw [List.map_cons, argsToTokens_cons hne hnext, htoken, ih hflags.2]
      rfl
  have hmiddle : argsToTokens options (pairs.map (fun o => withValue o.1 o.2) ++ flags.map long) =
      pairs.map (fun o => Token.option o.1 (some o.2) true) ++
        flags.map fun name => Token.option name none false := by
    induction pairs with
    | nil => exact hlast
    | cons o pairs ih =>
      rw [List.forall_mem_cons] at hpairs
      obtain ⟨htoken, hnext, hne⟩ := @token_withValue options o.1 o.2 hpairs.1
      rw [List.map_cons, List.cons_append, argsToTokens_cons hne hnext, htoken, ih hpairs.2]
      rfl
  rw [List.append_assoc, argsToTokens_append fun word hword => token_word (hwords word hword), hmiddle,
    argvTokens, List.append_assoc]

theorem storeOption_new {values : List (List ℕ × OptionValue)} {name : List ℕ} (value : OptionValue)
    (h : name ∉ values.map (·.1)) : storeOption values name value = values ++ [(name, value)] := by
  have hnone : values.any (·.1 == name) = false := by
    rw [List.any_eq_false]
    intro v hv heq
    exact h (List.mem_map.2 ⟨v, hv, beq_iff_eq.1 heq⟩)
  rw [storeOption, hnone, if_neg Bool.false_ne_true]

/-- The values of options with names of their own. -/
theorem foldl_store_options {α : Type} {tokens : List α} {token : α → Token} (name : α → List ℕ)
    (value : α → OptionValue)
    (htoken : ∀ parsed a, store parsed (token a) =
      { parsed with values := storeOption parsed.values (name a) (value a) })
    {parsed : Parsed} (h : (parsed.values.map (·.1) ++ tokens.map name).Nodup) :
    (tokens.map token).foldl store parsed =
      { parsed with values := parsed.values ++ tokens.map fun a => (name a, value a) } := by
  induction tokens generalizing parsed with
  | nil => simp
  | cons a tokens ih =>
    have hnew : name a ∉ parsed.values.map (·.1) := by
      intro hmem
      exact (List.disjoint_of_nodup_append h) hmem (by simp)
    rw [List.map_cons, List.foldl_cons, htoken, storeOption_new _ hnew, ih]
    · simp
    · simpa using h

theorem foldl_store_words (words : List (List ℕ)) (parsed : Parsed) :
    (words.map Token.positional).foldl store parsed =
      { parsed with positionals := parsed.positionals ++ words } := by
  induction words generalizing parsed with
  | nil => simp
  | cons word words ih => simp [store, ih]

/-- What is read of words, options with their values, and flags. -/
def argvParsed (words : List (List ℕ)) (pairs : List (List ℕ × List ℕ)) (flags : List (List ℕ)) :
    Parsed where
  values := pairs.map (fun o => (o.1, .string o.2)) ++ flags.map fun name => (name, .flag)
  positionals := words
  tokens := argvTokens words pairs flags

/-- **Words, options with their values, and flags** are read as they stand there. -/
theorem parseArgs_argv {words flags : List (List ℕ)} {pairs : List (List ℕ × List ℕ)}
    (hwords : ∀ word ∈ words, IsWord word)
    (hpairs : ∀ o ∈ pairs, IsName o.1 ∧ typeOf options o.1 = some .string)
    (hflags : ∀ name ∈ flags, IsName name ∧ typeOf options name = some .boolean)
    (hnodup : (pairs.map (·.1) ++ flags).Nodup) :
    parseArgs options (words ++ pairs.map (fun o => withValue o.1 o.2) ++ flags.map long) =
      some (argvParsed words pairs flags) := by
  have htokens := argsToTokens_argv hwords (fun o ho => (hpairs o ho).1) hflags
  have hcheck : (argvTokens words pairs flags).all (checkToken options) = true := by
    rw [List.all_eq_true]
    intro token hmem
    rcases List.mem_append.1 hmem with hmem | hmem
    · rcases List.mem_append.1 hmem with hmem | hmem
      · obtain ⟨word, -, rfl⟩ := List.mem_map.1 hmem
        rfl
      · obtain ⟨o, ho, rfl⟩ := List.mem_map.1 hmem
        simp [checkToken, (hpairs o ho).2]
    · obtain ⟨name, hname, rfl⟩ := List.mem_map.1 hmem
      simp [checkToken, (hflags name hname).2]
  have hfirst : (pairs.map (·.1)).Nodup := (List.nodup_append.1 hnodup).1
  have hstore : ∀ tokens, (argvTokens words pairs flags).foldl store ⟨[], [], tokens⟩ =
      { argvParsed words pairs flags with tokens } := by
    intro tokens
    rw [argvTokens, List.foldl_append, List.foldl_append, foldl_store_words,
      foldl_store_options (fun o : List ℕ × List ℕ => o.1) (fun o => .string o.2) (fun _ _ => rfl)
        (by simpa using hfirst),
      foldl_store_options id (fun _ => .flag) (fun _ _ => rfl)
        (by simpa [Function.comp_def] using hnodup)]
    simp [argvParsed]
  simp only [parseArgs, htokens, hcheck, if_true, hstore]
  rfl

end ParseArgs

end Echolet
