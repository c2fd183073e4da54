import WorkflowOperator.Text.Count

/-!
# Command lines

What a command line asks for.  Options may stand before or after the name of a command where they
hold for all commands; after `--` every word is an argument.
-/

namespace WorkflowOperator.Command

/-- A shell that the command line can be completed in. -/
inductive Shell
  | bash
  | zsh
  | fish
  | powerShell
  | elvish
deriving DecidableEq, Repr

def Shell.all : List Shell := [.bash, .zsh, .fish, .powerShell, .elvish]

def Shell.name : Shell → String
  | .bash => "bash"
  | .zsh => "zsh"
  | .fish => "fish"
  | .powerShell => "power-shell"
  | .elvish => "elvish"

def commandNames : List String := ["validate", "names", "render", "plan", "completions"]

/-- A command with its arguments. -/
inductive Task
  | validate (file : String)
  | names (file : String) (json : Bool)
  | render (file : String) (outputDir : Option String)
  /-- Makes passes of convergence on an empty store and shows what it holds then. -/
  | plan (file : String) (passes : UInt32)
  | completions (shell : Shell)
deriving DecidableEq, Repr

/-- What to do with what configuration file and with how many words. -/
structure Invocation where
  config : Option String
  verbose : Bool
  task : Task
deriving DecidableEq, Repr

/-- What a command line asks for. -/
inductive Request
  | run (invocation : Invocation)
  | help
  | version
deriving DecidableEq, Repr

/-- Why a command line is refused. -/
inductive UsageFault
  | noCommand
  | unknown (word : String)
  | missing (what : String)
  | invalid (option value : String)
  | repeated (option : String)
deriving DecidableEq, Repr

def UsageFault.message : UsageFault → String
  | noCommand => "a command is required"
  | unknown word => "unexpected argument '" ++ word ++ "' found"
  | missing what => "a value is required for '" ++ what ++ "'"
  | invalid option value => "invalid value '" ++ value ++ "' for '" ++ option ++ "'"
  | repeated option => "the argument '" ++ option ++ "' cannot be used multiple times"

/-- An option: its name, its short name, and whether a value follows it. -/
structure Flag where
  name : String
  short : Option Char
  takesValue : Bool
deriving DecidableEq, Repr

def commonFlags : List Flag :=
  [⟨"config", some 'c', true⟩, ⟨"verbose", some 'v', false⟩, ⟨"help", some 'h', false⟩]

/-- The options of a command, or those that may stand before it. -/
def flagsOf : Option String → List Flag
  | none => commonFlags ++ [⟨"version", some 'V', false⟩]
  | some "names" => commonFlags ++ [⟨"json", none, false⟩]
  | some "render" => commonFlags ++ [⟨"output-dir", some 'o', true⟩]
  | some "plan" => commonFlags ++ [⟨"passes", some 'p', true⟩]
  | some _ => commonFlags

def isValueFor (flag : Flag) (value : String) : Bool :=
  if flag.name == "passes" then (Text.readSignedCount? value).isSome else !value.isEmpty

/-- What has been read of the words on one side of the command's name. -/
structure Words where
  options : List (String × String)
  arguments : List String
  /-- Whether `--` has been read. -/
  onlyArguments : Bool
deriving Repr

def Words.option? (w : Words) (name : String) : Option String :=
  (w.options.find? fun o => o.1 == name).map Prod.snd

/-- Where reading stands after a word. -/
inductive Progress
  | next (words : Words)
  /-- The value of an option is the next word. -/
  | needsValue (flag : Flag) (words : Words)
  | stop (request : Request)
  | refuse (fault : UsageFault)

def Words.put (w : Words) (flag : Flag) (value : String) : Progress :=
  if flag.name == "help" then .stop .help
  else if flag.name == "version" then .stop .version
  else if (w.option? flag.name).isSome then .refuse (.repeated flag.name)
  else if flag.takesValue && !isValueFor flag value then .refuse (.invalid flag.name value)
  else .next { w with options := w.options ++ [(flag.name, value)] }

/-- Reads an option with a long name, and the value after an equals sign if there is one. -/
def Words.readLong (w : Words) (flags : List Flag) (word : List Char) : Progress :=
  let name := String.ofList (word.takeWhile (· != '='))
  let attached := match word.dropWhile (· != '=') with
    | [] => none
    | _ :: value => some (String.ofList value)
  match flags.find? (·.name == name), attached with
  | none, _ => .refuse (.unknown ("--" ++ name))
  | some flag, some value =>
    if flag.takesValue then w.put flag value else .refuse (.invalid flag.name value)
  | some flag, none => if flag.takesValue then .needsValue flag w else w.put flag ""

/-- Reads options with short names that stand together; the value of one may follow it. -/
def Words.readShort (flags : List Flag) : List Char → Words → Progress
  | [], w => .next w
  | c :: rest, w =>
    match flags.find? (·.short == some c) with
    | none => .refuse (.unknown (String.ofList ['-', c]))
    | some flag =>
      if flag.takesValue then
        match rest with
        | [] => .needsValue flag w
        | '=' :: value => w.put flag (String.ofList value)
        | value => w.put flag (String.ofList value)
      else
        match w.put flag "" with
        | .next w => readShort flags rest w
        | other => other

/-- Reads one word on either side of the command's name. -/
def Words.read (flags : List Flag) (w : Words) (word : String) : Progress :=
  if w.onlyArguments then .next { w with arguments := w.arguments ++ [word] }
  else
    match word.toList with
    | ['-', '-'] => .next { w with onlyArguments := true }
    | '-' :: '-' :: long => w.readLong flags long
    | '-' :: c :: rest => readShort flags (c :: rest) w
    | _ => .next { w with arguments := w.arguments ++ [word] }

/-- Whether a word can be the value of the option before it. -/
def isPlainWord (word : String) : Bool :=
  match word.toList with
  | '-' :: _ :: _ => false
  | _ => true

/-- Reads the words after the name of a command, of which at most one is an argument. -/
def readArguments (flags : List Flag) : List String → Words → Except UsageFault (Request ⊕ Words)
  | [], w => .ok (.inr w)
  | word :: rest, w =>
    match w.read flags word with
    | .refuse fault => .error fault
    | .stop request => .ok (.inl request)
    | .next w =>
      if 1 < w.arguments.length then .error (.unknown word) else readArguments flags rest w
    | .needsValue flag w =>
      match rest with
      | [] => .error (.missing flag.name)
      | value :: rest =>
        if !isPlainWord value then .error (.missing flag.name)
        else
          match w.put flag value with
          | .next w => readArguments flags rest w
          | .refuse fault => .error fault
          | _ => .error (.unknown value)

def fileArgument (w : Words) : Except UsageFault String :=
  match w.arguments with
  | [] => .error (.missing "file")
  | file :: _ => if file.isEmpty then .error (.invalid "file" file) else .ok file

def shellArgument (w : Words) : Except UsageFault Shell :=
  match w.arguments with
  | [] => .error (.missing "shell")
  | name :: _ =>
    match Shell.all.find? (·.name == name) with
    | some shell => .ok shell
    | none => .error (.invalid "shell" name)

def taskOf (name : String) (w : Words) : Except UsageFault Task := do
  if name == "completions" then return .completions (← shellArgument w)
  let file ← fileArgument w
  match name with
  | "validate" => return .validate file
  | "names" => return .names file (w.option? "json").isSome
  | "render" => return .render file (w.option? "output-dir")
  | "plan" => return .plan file (((w.option? "passes").bind Text.readSignedCount?).getD 1)
  | _ => throw (.unknown name)

/-- Reads the words from the name of a command on. -/
def readCommand (before : Words) (name : String) (rest : List String) :
    Except UsageFault Request :=
  if name == "help" then
    match rest with
    | [] => .ok .help
    | about :: _ => if commandNames.contains about then .ok .help else .error (.unknown about)
  else if !commandNames.contains name then .error (.unknown name)
  else
    match readArguments (flagsOf (some name)) rest ⟨[], [], false⟩ with
    | .error fault => .error fault
    | .ok (.inl request) => .ok request
    | .ok (.inr w) => do
      let task ← taskOf name w
      return .run ⟨(w.option? "config").orElse fun _ => before.option? "config",
        ((w.option? "verbose").orElse fun _ => before.option? "verbose").isSome, task⟩

/-- Reads the words up to the name of a command and from there on. -/
def readWords (before : Words) : List String → Except UsageFault Request
  | [] => .error .noCommand
  | word :: rest =>
    match before.read (flagsOf none) word with
    | .refuse fault => .error fault
    | .stop request => .ok request
    | .needsValue flag w =>
      match rest with
      | [] => .error (.missing flag.name)
      | value :: rest =>
        if !isPlainWord value then .error (.missing flag.name)
        else
          match w.put flag value with
          | .next w => readWords w rest
          | .refuse fault => .error fault
          | _ => .error (.unknown value)
    | .next w =>
      if w.arguments.isEmpty then readWords w rest
      else if w.onlyArguments then .error (.unknown word)
      else readCommand before word rest

def Request.ofWords (words : List String) : Except UsageFault Request :=
  readWords ⟨[], [], false⟩ words

end WorkflowOperator.Command
