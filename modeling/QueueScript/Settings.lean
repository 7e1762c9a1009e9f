import QueueScript.Lint.Config
import QueueScript.ReadFailure
import QueueScript.Script.Draft
/-!
Settings: the defaults of documents and the configuration of the checks. They come from a file,
then the environment, then explicit values; later sources win.
-/

namespace QueueScript

open Json (Record readText)

structure Settings where
  defaultProfile : String := "default"
  defaultRegion : String := "us-east-1"
  lint : Lint.Config := {}
  deriving DecidableEq, Repr

namespace Settings

inductive Error where
  | unreadable (path : String) (failure : ReadFailure)
  | invalid (error : Json.ReadError)
  | emptyDefault (field : String)

def Error.source : Error → Option String
  | .unreadable _ failure => some failure.message
  | .invalid error => some error.message
  | .emptyDefault _ => none

def Error.message : Error → String
  | .unreadable path failure =>
      "Failed to read settings file " ++ path ++ ": " ++ failure.message
  | .invalid error => "Invalid settings JSON: " ++ error.message
  | .emptyDefault field => "Setting '" ++ field ++ "' must not be empty"

def profileVariable : String := "QUEUEPAD_PROFILE"

def regionVariable : String := "QUEUEPAD_REGION"

def isBlankText (s : String) : Bool := (Text.trim s.toList).isEmpty

def validate (s : Settings) : Except Error Unit :=
  if isBlankText s.defaultProfile then .error (.emptyDefault "defaultProfile")
  else if isBlankText s.defaultRegion then .error (.emptyDefault "defaultRegion")
  else .ok ()

def toJson (s : Settings) : Json :=
  .object [("defaultProfile", .string s.defaultProfile), ("defaultRegion", .string s.defaultRegion),
    ("lint", s.lint.toJson)]

structure Draft where
  defaultProfile : Option String := none
  defaultRegion : Option String := none
  lint : Option Lint.Config := none

def record : Record Draft Settings where
  expected := "struct Settings"
  empty := {}
  fields :=
    [.of "defaultProfile" (·.defaultProfile) (fun d s => { d with defaultProfile := some s })
      readText,
     .of "defaultRegion" (·.defaultRegion) (fun d s => { d with defaultRegion := some s })
      readText,
     .of "lint" (·.lint) (fun d c => { d with lint := some c }) Lint.Config.record.read]
  least := 0
  build d :=
    let default : Settings := {}
    .ok {
      defaultProfile := d.defaultProfile.getD default.defaultProfile
      defaultRegion := d.defaultRegion.getD default.defaultRegion
      lint := d.lint.getD default.lint }

def ofText (text : String) : Except Error Settings :=
  match Json.readWhole record.read text.toList with
  | .error e => .error (.invalid e)
  | .ok s => do
      s.validate
      return s

def load (path : String) (content : Except ReadFailure String) : Except Error Settings :=
  match content with
  | .error failure => .error (.unreadable path failure)
  | .ok text => ofText text

def override? (environment : String → Option String) (name : String) : Option String := do
  let value ← environment name
  let value := Text.trim value.toList
  if value.isEmpty then none else some (String.ofList value)

def withEnvironment (s : Settings) (environment : String → Option String) : Settings :=
  { s with
    defaultProfile := (override? environment profileVariable).getD s.defaultProfile
    defaultRegion := (override? environment regionVariable).getD s.defaultRegion }

def withValues (s : Settings) (profile region : Option String) : Settings :=
  { s with
    defaultProfile := profile.getD s.defaultProfile
    defaultRegion := region.getD s.defaultRegion }

def resolve (file : Except Error Settings) (environment : String → Option String)
    (profile region : Option String) : Except Error Settings := do
  let s := ((← file).withEnvironment environment).withValues profile region
  s.validate
  return s

def defaults (s : Settings) : Script.Defaults := ⟨s.defaultProfile, s.defaultRegion⟩

end Settings

end QueueScript
