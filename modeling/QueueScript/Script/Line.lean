import QueueScript.Command.Basic
import QueueScript.Text.Blank

namespace QueueScript.Script

open Text (trim nextWord?)

abbrev Line := List Char

def header? (line : Line) : Option (Kind × String) := do
  let (word, rest) ← nextWord? line
  let kind ← Kind.ofKeyword? (String.ofList word)
  let (target, _) ← nextWord? rest
  return (kind, String.ofList target)

def splitColon? : Line → Option (Line × Line)
  | [] => none
  | c :: s =>
      if c = ':' then some ([], s)
      else (splitColon? s).map (fun (key, value) => (c :: key, value))

def parameter? (line : Line) : Option (ParameterKey × String) := do
  let (name, value) ← splitColon? line
  let key ← ParameterKey.ofName? (String.ofList name)
  let value := trim value
  if value.isEmpty then none else some (key, String.ofList value)

inductive LineClass where
  | delimiter
  | silent
  | header (kind : Kind) (target : String)
  | content
  deriving DecidableEq, Repr

def classify (line : Line) : LineClass :=
  match trim line with
  | [] => .silent
  | '#' :: r => if r = ['#', '#'] then .delimiter else .silent
  | c :: r =>
      match header? (c :: r) with
      | some (kind, target) => .header kind target
      | none => .content

end QueueScript.Script
