import Lineage.Check
import Lineage.CommandLine
import Lineage.Json.Printer
import Lineage.Log.Filter
import Lineage.Report.Json
import Lineage.Report.Text
import Lineage.Workspace

/-!
# The program

A run takes arguments in a workspace and gives an exit code, two texts, and the workspace after it.
Results go to the output; events that the filter lets through, complaints and errors go to the other
text.
-/

namespace Lineage

/-- What a command does. -/
structure Reply where
  exit : ExitCode
  events : List Event := []
  output : String := ""
  /-- Errors in words. -/
  errors : List String := []

/-- What a run of the program gives. -/
structure Run where
  exit : Nat
  output : String := ""
  errors : String := ""
  workspace : Workspace

namespace Reply

def failure (exit : ExitCode) (events : List Event) (message : String) : Reply :=
  { exit, events, errors := [message] }

def config (settings : Settings) : Reply :=
  { exit := .success
    output := "# effective classgraph settings (defaults < settings.toml < CLASSGRAPH_*)\n"
      ++ Toml.print settings.toTree }

/-- Reports as one text: an array in JSON, or one after the other. -/
def reportsText (format : OutputFormat) (style : Report.Style) (reports : List Report) : String :=
  match format with
  | .json => (Json.array (reports.map (·.toJson))).pretty ++ "\n"
  | .text => String.join (reports.map (·.text style))

/-- How reports are written. The output is no terminal, so that colours must be asked for. -/
def reportStyle (w : Workspace) (settings : Settings) : Report.Style where
  showClean := settings.output.showCleanTypes
  coloured := (w.environment.lookup "CLICOLOR_FORCE").any (· ≠ "0")

/-- A reply to a request to check files. -/
def check (w : Workspace) (settings : Settings) (files : List Path) (json strict : Bool) : Reply :=
  let judged := files.map (Verdict.ofFile w.files w.folder settings.resolver strict)
  let verdicts := judged.map (·.value)
  let format := OutputFormat.choose json settings.output.format
  { exit := Verdict.exitOf verdicts
    events := judged.flatMap (·.events) ++ [.checked files.length]
    output := reportsText format (reportStyle w settings) (verdicts.map (·.report)) }

/-- A reply to a question about a hierarchy, after some events. -/
def answer (format : OutputFormat) (events : List Event) (h : Hierarchy) (q : Question) : Reply :=
  match q.answer h, format with
  | .ok answer, .json =>
    { exit := .success
      events := events ++ [.answered q.key answer.toJson.compact]
      output := (Json.object [("query", .string q.key), ("result", answer.toJson)]).pretty ++ "\n" }
  | .ok answer, .text =>
    { exit := .success
      events := events ++ [.answered q.key answer.toJson.compact]
      output := answer.text ++ "\n" }
  | .error e, .json =>
    { exit := .notFound, events
      output := (Json.object [("error", .string e.message), ("query", .string q.key)]).compact
        ++ "\n" }
  | .error e, .text => failure .notFound events e.message

def query (w : Workspace) (settings : Settings) (file : Path) (json : Bool) (q : Question) :
    Reply :=
  let loaded := Document.load w.files w.folder file
  match loaded.value with
  | .error e => failure e.exit loaded.events e.message
  | .ok declarations =>
    let built := Hierarchy.build settings.resolver declarations
    let events := loaded.events ++ built.events
    match built.value with
    | .error e => failure .generalError events e.message
    | .ok h => answer (.choose json settings.output.format) events h q

/-- A reply after the default settings were saved to a file. -/
def saved (path : Path) : Reply :=
  let resolver : Resolver := {}
  { exit := .success
    output := "Created " ++ path ++ "\n  root type: " ++ resolver.rootType ++ " (aliases: "
      ++ ", ".intercalate resolver.rootAliases ++ ")\n  external prefixes: "
      ++ ", ".intercalate resolver.externalPrefixes ++ "\n" }

/-- The run that ends with a reply. The filter is the one that the environment asks for, or
else the one of the settings. -/
def run (r : Reply) (w : Workspace) (settings : Settings) : Run :=
  let (filter, complaints) := Filter.read <|
    (w.environment.lookup "RUST_LOG").getD (settings.logging.filterText settings.debug)
  let lines := complaints ++ (r.events.filter filter.tells).map (·.line)
    ++ r.errors.map ("Error: " ++ ·)
  { exit := r.exit.number
    output := r.output
    errors := String.join (lines.map (· ++ "\n"))
    workspace := w }

end Reply

namespace Program

/-- What the program can be asked for. -/
def usage : String :=
  "usage: classgraph [-c FILE] init [--force] | config | check FILE... [--json] [--strict]\n"
    ++ "                           | query FILE [--json] subtype SUB SUPER\n"
    ++ "                           | query FILE [--json] ancestors | interfaces | enclosing\n"
    ++ "                             | abstracts | subtypes NAME\n"

/-- The settings for a run: those of a given file, which must be there, or those that count in the
working folder. -/
def settings (w : Workspace) : Option Path → Except String Settings
  | none => w.load.mapError fun _ => "failed to load configuration"
  | some path =>
    if w.files.exists? w.folder path then
      (w.loadFrom path).mapError fun _ => "failed to load configuration from " ++ path
    else .error ("configuration file not found: " ++ path)

/-- Saves the default settings in the working folder. -/
def init (w : Workspace) (force : Bool) : Run :=
  match w.init w.folder.path force with
  | (.ok path, after) => (Reply.saved path).run after {}
  | (.error e, after) => (Reply.failure .configError [] e.message).run after {}

/-- Carries out what needs settings. -/
def withSettings (w : Workspace) (path : Option Path) (reply : Settings → Reply) : Run :=
  match settings w path with
  | .error message =>
    { exit := ExitCode.configError.number, errors := "Error: " ++ message ++ "\n", workspace := w }
  | .ok settings => (reply settings).run w settings

def execute (w : Workspace) (i : Invocation) : Run :=
  match i.command with
  | .init force => init w force
  | .config => withSettings w i.settings .config
  | .check files json strict =>
    withSettings w i.settings fun settings => .check w settings files json strict
  | .query file json question =>
    withSettings w i.settings fun settings => .query w settings file json question

/-- Runs the program. -/
def run (w : Workspace) (args : List String) : Run :=
  match CommandLine.parse args with
  | .error .misused => { exit := 2, errors := usage, workspace := w }
  | .error .version => { exit := 0, output := "classgraph 0.1.0\n", workspace := w }
  | .error .help => { exit := 0, output := usage, workspace := w }
  | .ok invocation => execute w invocation

end Program

end Lineage
