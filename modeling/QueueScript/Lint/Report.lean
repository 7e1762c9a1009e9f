import QueueScript.Json.Basic

namespace QueueScript.Lint

inductive Level where
  | error
  | warning
  deriving DecidableEq, Repr

def Level.name : Level → String
  | .error => "error"
  | .warning => "warning"

inductive Category where
  | body
  | receive
  | target
  deriving DecidableEq, Repr

def Category.name : Category → String
  | .body => "body"
  | .receive => "receive"
  | .target => "target"

structure Issue where
  level : Level
  category : Category
  line : Nat
  message : String
  deriving DecidableEq, Repr

def Issue.at (level : Level) (category : Category) (index : Nat) (message : String) : Issue :=
  ⟨level, category, index + 1, message⟩

structure Report where
  issues : List Issue := []
  errorCount : Nat := 0
  warningCount : Nat := 0
  deriving DecidableEq, Repr

namespace Report

def add (r : Report) (i : Issue) : Report :=
  match i.level with
  | .error => { r with issues := r.issues ++ [i], errorCount := r.errorCount + 1 }
  | .warning => { r with issues := r.issues ++ [i], warningCount := r.warningCount + 1 }

def ofIssues (issues : List Issue) : Report := issues.foldl add {}

def sortByLine (r : Report) : Report :=
  { r with issues := r.issues.mergeSort (fun a b => decide (a.line ≤ b.line)) }

def hasErrors (r : Report) : Bool := decide (0 < r.errorCount)

def isClean (r : Report) : Bool := r.issues.isEmpty

end Report

def Issue.toJson (i : Issue) : Json :=
  .object [("level", .string i.level.name), ("category", .string i.category.name),
    ("line", .ofNat i.line), ("message", .string i.message)]

def Report.toJson (r : Report) : Json :=
  .object [("issues", .array (r.issues.map Issue.toJson)), ("error_count", .ofNat r.errorCount),
    ("warning_count", .ofNat r.warningCount)]

end QueueScript.Lint
