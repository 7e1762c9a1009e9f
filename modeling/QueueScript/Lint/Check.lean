import QueueScript.Command.Basic
import QueueScript.Lint.Config
import QueueScript.Lint.Report

namespace QueueScript.Lint

def bodyIssues (config : BodyConfig) (c : Command) : List Issue :=
  c.warnings.map (fun w => .at .warning .body w.line w.message) ++
    if config.requireBody ∧ c.kind = .send ∧ c.body.isNone then
      [.at .error .body c.range.first ("'" ++ c.title ++ "' has no valid JSON body to send")]
    else []

def receiveIssues (config : ReceiveConfig) (c : Command) : List Issue :=
  if c.kind = .receive then
    let error := fun message => [Issue.at .error .receive c.range.first message]
    let maxMessages := match c.maxMessages with
      | some n =>
          if config.minMaxMessages ≤ n ∧ n ≤ config.maxMaxMessages then []
          else error ("max-messages " ++ toString n.toNat ++ " is outside " ++
            toString config.minMaxMessages.toNat ++ "..=" ++ toString config.maxMaxMessages.toNat)
      | none => []
    let visibilityTimeout := match c.visibilityTimeout with
      | some n =>
          if n ≤ config.maxVisibilityTimeout then []
          else error ("visibility-timeout " ++ toString n.toNat ++ "s exceeds " ++
            toString config.maxVisibilityTimeout.toNat ++ "s")
      | none => []
    let waitTime := match c.waitTime with
      | some n =>
          if n ≤ config.maxWaitTime then []
          else error ("wait-time " ++ toString n.toNat ++ "s exceeds " ++
            toString config.maxWaitTime.toNat ++ "s")
      | none => []
    maxMessages ++ visibilityTimeout ++ waitTime
  else []

def hasScheme (target scheme : String) : Bool :=
  let opening := scheme.toList ++ [':', '/', '/']
  opening.isPrefixOf target.toList && decide (opening.length < target.toList.length)

def targetIssues (config : TargetConfig) (c : Command) : List Issue :=
  if config.schemes.any (hasScheme c.target) then []
  else [.at .warning .target c.range.first ("Target '" ++ c.target ++ "' is not a queue URL")]

def issues (config : Config) (commands : List Command) : List Issue :=
  (if config.body.enabled then commands.flatMap (bodyIssues config.body) else []) ++
  (if config.receive.enabled then commands.flatMap (receiveIssues config.receive) else []) ++
  (if config.target.enabled then commands.flatMap (targetIssues config.target) else [])

def check (config : Config) (commands : List Command) : Report :=
  (Report.ofIssues (issues config commands)).sortByLine

end QueueScript.Lint
