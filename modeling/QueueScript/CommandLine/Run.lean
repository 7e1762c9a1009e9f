import QueueScript.CommandLine.Arguments
import QueueScript.Lint.Check
import QueueScript.Outline
import QueueScript.Request
import QueueScript.Script.Scan
import QueueScript.Settings

namespace QueueScript.CommandLine

structure Exit where
  code : Nat
  stdout : String := ""
  stderr : String := ""
  deriving DecidableEq, Repr

def versionText : String := "queuepad 0.1.0\n"

def usageText : String :=
  "Usage: queuepad [--config FILE] [--profile NAME] [--region NAME] <parse|plan|lint|outline> FILE\n"

def Exit.failure (message : String) : Exit := { code := 1, stderr := "Error: " ++ message ++ "\n" }

def Exit.ofStop : Stop → Exit
  | .help => { code := 0, stdout := usageText }
  | .version => { code := 0, stdout := versionText }
  | .usage => { code := 2, stderr := usageText }

def planEntry (c : Command) : Json :=
  .object <|
    [("line", .ofNat (c.range.first + 1)), ("title", .string c.title)] ++
    match Invocation.ofCommand c with
    | .ok i => [("invocation", i.toJson)]
    | .error e => [("error", .string e.message)]

def outlineJson (commands : List Command) : Json :=
  .object [("codeLenses", .array ((Outline.lenses commands).map Outline.Lens.toJson)),
    ("symbols", .array ((Outline.symbols commands).map Outline.Symbol.toJson))]

def issueLine (file : String) (i : Lint.Issue) : String :=
  file ++ ":" ++ toString i.line ++ ": " ++ i.level.name ++ " [" ++ i.category.name ++ "] " ++
    i.message ++ "\n"

def Exit.print (v : Json) : Exit := { code := 0, stdout := v.indented ++ "\n" }

def lintExit (file : String) (report : Lint.Report) : Exit :=
  { Exit.print report.toJson with
    code := if report.hasErrors then 1 else 0
    stderr := String.join (report.issues.map (issueLine file)) }

namespace Job

def settings (job : Job) (read : String → Except ReadFailure String)
    (environment : String → Option String) : Except Settings.Error Settings :=
  let file := match job.options.config with
    | none => .ok {}
    | some path => Settings.load path (read path)
  Settings.resolve file environment job.options.profile job.options.region

def exit (job : Job) (settings : Settings) (text : String) : Exit :=
  let commands := Script.parse settings.defaults text
  match job.action with
  | .parse => .print (.array (commands.map Command.toJson))
  | .plan => .print (.array (commands.map planEntry))
  | .lint => lintExit job.file (Lint.check settings.lint commands)
  | .outline => .print (outlineJson commands)

def run (job : Job) (read : String → Except ReadFailure String)
    (environment : String → Option String) : Exit :=
  match job.settings read environment with
  | .error e => .failure (String.intercalate ": " (e.message :: e.source.toList))
  | .ok settings =>
      match read job.file with
      | .error failure =>
          .failure ("Failed to read request file '" ++ job.file ++ "': " ++ failure.message)
      | .ok text => job.exit settings text

end Job

def run (args : List String) (read : String → Except ReadFailure String)
    (environment : String → Option String) : Exit :=
  match Job.ofArguments args with
  | .error stop => .ofStop stop
  | .ok job => job.run read environment

end QueueScript.CommandLine
