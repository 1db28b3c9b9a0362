import Lineage.Files
import Lineage.Question
import Lineage.Text.Split

/-!
# Command lines

What can be asked for on a command line, and how arguments are read. Every command is a level of its
own with flags and plain arguments. The option for a file of settings may stand on any level, and
the innermost one counts.
-/

namespace Lineage

/-- What is to be done. -/
inductive Command
  /-- Save the default settings. -/
  | init (force : Bool)
  /-- Show the settings. -/
  | config
  /-- Check files. -/
  | check (files : List Path) (json strict : Bool)
  /-- Answer a question about a file. -/
  | query (file : Path) (json : Bool) (question : Question)
  deriving DecidableEq, Repr

/-- A command with the file of settings that is asked for. -/
structure Invocation where
  command : Command
  settings : Option Path := none
  deriving DecidableEq, Repr

/-- Why arguments ask for no command. -/
inductive NoCommand
  /-- They are wrong. -/
  | misused
  /-- They ask for the version. -/
  | version
  /-- They ask for help. -/
  | help
  deriving DecidableEq, Repr

namespace CommandLine

/-- What may stand on a level. -/
structure Level where
  /-- The long names of its flags. -/
  flags : List String := []
  /-- Flags that also have a letter. -/
  letters : List (Char × String) := []
  /-- How many plain arguments there may be at most, if that is limited. -/
  limit : Option Nat := some 0
  /-- Whether its plain arguments are paths, which must not be empty. -/
  ofPaths : Bool := false
  /-- The words that lead to a further level. -/
  words : List String := []
  /-- Whether the version may be asked for. -/
  hasVersion : Bool := false

/-- What was found on a level. -/
structure Found where
  settings : Option Path := none
  flags : List String := []
  values : List String := []
  /-- The word that leads on, and the arguments after it. -/
  next : Option (String × List String) := none

namespace Found

/-- Notes a flag, which must not come twice. -/
def setFlag (f : Found) (name : String) : Except NoCommand Found :=
  if f.flags.contains name then .error .misused else .ok { f with flags := name :: f.flags }

/-- Notes the file of settings, which has a name and must not come twice. -/
def setSettings (f : Found) (path : Path) : Except NoCommand Found :=
  if f.settings.isSome || path = "" then .error .misused else .ok { f with settings := some path }

/-- Notes a plain argument, if there may be one more. -/
def addValue (level : Level) (f : Found) (value : String) : Except NoCommand Found :=
  if level.ofPaths && value = "" then .error .misused
  else if level.limit.all (f.values.length < ·) then .ok { f with values := f.values ++ [value] }
  else .error .misused

end Found

/-- Whether an argument is an option. A lone hyphen is none. -/
def isOption (arg : String) : Bool :=
  match arg.toList with
  | '-' :: _ :: _ => true
  | _ => false

/-- Reads the letters of an argument. The rest after the letter for settings is their file; with no
rest, the next argument is, which the truth value tells. -/
def readLetters (level : Level) (f : Found) : List Char → Except NoCommand (Found × Bool)
  | [] => .ok (f, false)
  | ['c'] => .ok (f, true)
  | 'c' :: '=' :: path => return (← f.setSettings (String.ofList path), false)
  | 'c' :: path => return (← f.setSettings (String.ofList path), false)
  | 'h' :: _ => .error .help
  | 'V' :: rest =>
    if level.hasVersion then .error .version else readFlag 'V' rest
  | c :: rest => readFlag c rest
where
  /-- Reads the letter of a flag, and those after it. -/
  readFlag (c : Char) (rest : List Char) : Except NoCommand (Found × Bool) :=
    match level.letters.lookup c with
    | some name => do readLetters level (← f.setFlag name) rest
    | none => .error .misused

/-- Reads an argument with a long name: a flag, or the file of settings, which may be the next
argument. -/
def readName (level : Level) (f : Found) (name : List Char) : Except NoCommand (Found × Bool) :=
  let word := String.ofList (name.takeWhile (· ≠ '='))
  match name.dropWhile (· ≠ '=') with
  | '=' :: value =>
    if word = "config" then return (← f.setSettings (String.ofList value), false)
    else .error .misused
  | _ =>
    if word = "config" then .ok (f, true)
    else if word = "help" then .error .help
    else if word = "version" && level.hasVersion then .error .version
    else if level.flags.contains word then return (← f.setFlag word, false)
    else .error .misused

/-- The words for questions about one name. -/
def questionWords : List String :=
  ["ancestors", "interfaces", "enclosing", "abstracts", "subtypes"]

/-- The words that lead on from another word. -/
def wordsAfter (word : String) : List String :=
  if word = "query" then "subtype" :: questionWords else []

/-- Whether there is help on some words, of which the first is one of those given and each other one
leads on from the word before it. Where words lead on, the one for help is among them. -/
def isTopic (words : List String) : List String → Bool
  | [] => true
  | word :: rest =>
    !words.isEmpty && ("help" :: words).contains word && isTopic (wordsAfter word) rest

/-- Reads the arguments of a level. The truth value tells whether the file of settings is due. -/
def readLevel (level : Level) : Bool → Found → List String → Except NoCommand Found
  | true, _, [] => .error .misused
  | false, f, [] => .ok f
  | true, f, path :: args => do
    if isOption path then .error .misused else readLevel level false (← f.setSettings path) args
  | false, f, arg :: args => do
    match arg.toList with
    | ['-', '-'] => args.foldlM (Found.addValue level) f
    | '-' :: '-' :: name =>
      let (f, due) ← readName level f name
      readLevel level due f args
    | '-' :: c :: letters =>
      let (f, due) ← readLetters level f (c :: letters)
      readLevel level due f args
    | _ =>
      if level.words.contains arg then return { f with next := some (arg, args) }
      else if arg = "help" && !level.words.isEmpty then
        .error (if isTopic level.words args then .help else .misused)
      else readLevel level false (← f.addValue level arg) args

/-- Reads the arguments of a level from its start. -/
def read (level : Level) (args : List String) : Except NoCommand Found :=
  readLevel level false {} args

/-- The question of a word and the names after it. -/
def question? (word : String) (names : List String) : Option Question :=
  match names with
  | [name] => Question.ofKey? word name
  | [sub, super] => if word = "subtype" then some (.subtype sub super) else none
  | _ => none

def readQuery (args : List String) : Except NoCommand Invocation := do
  let outer ← read
    { flags := ["json"], limit := some 1, ofPaths := true, words := wordsAfter "query" } args
  match outer.next with
  | none => .error .misused
  | some (word, args) =>
    let inner ← read { flags := ["json"], limit := some (if word = "subtype" then 2 else 1) } args
    match outer.values, question? word inner.values with
    | [file], some question =>
      return {
        command := .query file ((outer.flags ++ inner.flags).contains "json") question
        settings := inner.settings <|> outer.settings }
    | _, _ => .error .misused

def readCommand (word : String) (args : List String) : Except NoCommand Invocation := do
  match word with
  | "init" =>
    let found ← read { flags := ["force"], letters := [('f', "force")] } args
    return ⟨.init (found.flags.contains "force"), found.settings⟩
  | "config" => return ⟨.config, (← read {} args).settings⟩
  | "check" =>
    let found ← read { flags := ["json", "strict"], limit := none, ofPaths := true } args
    if found.values.isEmpty then .error .misused
    else
      return ⟨.check found.values (found.flags.contains "json") (found.flags.contains "strict"),
        found.settings⟩
  | _ => readQuery args

def parse (args : List String) : Except NoCommand Invocation := do
  let top ← read { words := ["init", "config", "check", "query"], hasVersion := true } args
  match top.next with
  | none => .error .misused
  | some (word, args) =>
    let invocation ← readCommand word args
    return { invocation with settings := invocation.settings <|> top.settings }

end CommandLine

/-- The files that a command reads besides the settings of the working folder. -/
def Invocation.paths (i : Invocation) : List Path :=
  i.settings.toList ++
    match i.command with
    | .check files .. => files
    | .query file .. => [file]
    | _ => []

end Lineage
