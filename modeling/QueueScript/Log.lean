import QueueScript.Command.Basic
import QueueScript.ReadFailure

namespace QueueScript.Log

inductive Level where
  | trace
  | debug
  | info
  deriving DecidableEq, Repr

def Level.name : Level → String
  | .trace => "TRACE"
  | .debug => "DEBUG"
  | .info => "INFO"

structure Entry where
  level : Level
  text : String
  deriving DecidableEq, Repr

def discarded (c : Command) : Warning → Option Entry
  | .malformedBody line message =>
      some ⟨.debug, "Discarding malformed JSON body of '" ++ c.title ++ "' at line " ++
        toString (line + 1) ++ ": " ++ message⟩
  | .invalidNumber .. => none

def sealed (c : Command) : Entry :=
  ⟨.trace, "Sealed '" ++ c.title ++ "' at lines " ++ toString (c.range.first + 1) ++ "-" ++
    toString (c.range.last + 1)⟩

def ofParse (commands : List Command) : List Entry :=
  commands.flatMap (fun c => c.warnings.filterMap (discarded c) ++ [sealed c])

def ofLoad (path : String) : Except ReadFailure String → List Entry
  | .ok _ => [⟨.debug, "Loaded settings from " ++ path⟩]
  | .error _ => []

end QueueScript.Log
