namespace QueueScript.CommandLine

inductive Action where
  | parse
  | plan
  | lint
  | outline
  deriving DecidableEq, Repr

def Action.name : Action → String
  | .parse => "parse"
  | .plan => "plan"
  | .lint => "lint"
  | .outline => "outline"

def Action.all : List Action := [.parse, .plan, .lint, .outline]

def Action.ofName? (name : String) : Option Action := all.find? (fun a => a.name == name)

inductive OptionName where
  | config
  | profile
  | region
  deriving DecidableEq, Repr

def OptionName.name : OptionName → String
  | .config => "config"
  | .profile => "profile"
  | .region => "region"

def OptionName.all : List OptionName := [.config, .profile, .region]

def OptionName.ofName? (name : String) : Option OptionName := all.find? (fun o => o.name == name)

structure Options where
  config : Option String := none
  profile : Option String := none
  region : Option String := none
  deriving DecidableEq, Repr

namespace Options

def get (o : Options) : OptionName → Option String
  | .config => o.config
  | .profile => o.profile
  | .region => o.region

def set (o : Options) (value : String) : OptionName → Options
  | .config => { o with config := some value }
  | .profile => { o with profile := some value }
  | .region => { o with region := some value }

def orElse (o others : Options) : Options :=
  ⟨o.config <|> others.config, o.profile <|> others.profile, o.region <|> others.region⟩

end Options

structure Job where
  action : Action
  file : String
  options : Options
  deriving DecidableEq, Repr

inductive Stop where
  | help
  | version
  | usage
  deriving DecidableEq, Repr

structure Gathered where
  awaiting : Option OptionName := none
  action : Option Action := none
  before : Options := {}
  after : Options := {}
  file : Option String := none
  plainOnly : Bool := false
  topics : Option (List String) := none

namespace Gathered

def looksLikeOption (arg : List Char) : Bool := arg.head? == some '-' && arg != ['-']

def setOption (p : Gathered) (name : OptionName) (value : String) : Except Stop Gathered :=
  let side := if p.action.isSome then p.after else p.before
  if (side.get name).isSome ∨ (name = .config ∧ value = "") then .error .usage
  else
    let side := side.set value name
    .ok (if p.action.isSome then { p with after := side } else { p with before := side })

def plain (p : Gathered) (arg : String) : Except Stop Gathered :=
  match p.action, p.file with
  | none, _ =>
      match Action.ofName? arg with
      | some action => .ok { p with action := some action }
      | none => if arg = "help" then .ok { p with topics := some [] } else .error .usage
  | some _, none => if arg = "" then .error .usage else .ok { p with file := some arg }
  | some _, some _ => .error .usage

def splitEquals : List Char → List Char × Option (List Char)
  | [] => ([], none)
  | c :: s =>
      if c = '=' then ([], some s)
      else
        let (name, value) := splitEquals s
        (c :: name, value)

def long (p : Gathered) (text : List Char) : Except Stop Gathered :=
  let (name, value) := splitEquals text
  match OptionName.ofName? (String.ofList name), value with
  | some name, some value => p.setOption name (String.ofList value)
  | some name, none => .ok { p with awaiting := some name }
  | none, some _ => .error .usage
  | none, none =>
      if String.ofList name = "help" then .error .help
      else if String.ofList name = "version" ∧ p.action.isNone then .error .version
      else .error .usage

def short (p : Gathered) (letter : Char) : Stop :=
  if letter = 'h' then .help
  else if letter = 'V' ∧ p.action.isNone then .version
  else .usage

def addTopic (p : Gathered) (topics : List String) (arg : String) : Except Stop Gathered :=
  if topics = [] ∧ (arg = "help" ∨ (Action.ofName? arg).isSome) then
    .ok { p with topics := some [arg] }
  else .error .usage

def accept (p : Gathered) (arg : String) : Except Stop Gathered :=
  match p.awaiting, p.topics with
  | some name, _ =>
      if looksLikeOption arg.toList then .error .usage
      else { p with awaiting := none }.setOption name arg
  | none, some topics => p.addTopic topics arg
  | none, none =>
      if p.plainOnly then p.plain arg
      else match arg.toList with
        | ['-', '-'] =>
            if p.action.isSome then .ok { p with plainOnly := true } else .error .usage
        | '-' :: '-' :: text => p.long text
        | '-' :: letter :: _ => .error (p.short letter)
        | _ => p.plain arg

def finish (p : Gathered) : Except Stop Job :=
  match p.topics, p.awaiting, p.action, p.file with
  | some _, _, _, _ => .error .help
  | none, none, some action, some file => .ok ⟨action, file, p.after.orElse p.before⟩
  | none, _, _, _ => .error .usage

end Gathered

def Job.ofArguments (args : List String) : Except Stop Job := do
  (← args.foldlM Gathered.accept {}).finish

end QueueScript.CommandLine
