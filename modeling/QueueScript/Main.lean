import QueueScript.CommandLine.Folder
import QueueScript.CommandLine.Run

namespace QueueScript.Main

open CommandLine

def isCode (n : Nat) (code : UInt32) : Bool :=
  -- the system may hand a code over negated
  code.toNat == n || code.toNat + n == UInt32.size

def failureOf : IO.Error → ReadFailure
  | .noFileOrDirectory .. => .notFound
  | .permissionDenied .. => .notPermitted
  | .inappropriateType _ code _ => if isCode 21 code then .isDirectory else .notDirectory
  | .invalidArgument path code text =>
      if isCode 36 code then .nameTooLong
      else .other (toString (IO.Error.invalidArgument path code text))
  | e => .other (toString e)

def readContent (path : String) : IO (Except ReadFailure String) := do
  try
    return decode (← IO.FS.readBinFile path)
  catch e => return .error (failureOf e)

def readFiles (args : List String) : IO (List (String × Except ReadFailure String)) := do
  match Job.ofArguments args with
  | .error _ => return []
  | .ok job =>
      (job.options.config.toList ++ [job.file]).mapM (fun path => do
        return (path, ← readContent path))

end QueueScript.Main

open QueueScript in
def main (args : List String) : IO UInt32 := do
  let files ← Main.readFiles args
  let profile ← IO.getEnv Settings.profileVariable
  let region ← IO.getEnv Settings.regionVariable
  let environment := fun name =>
    if name = Settings.profileVariable then profile
    else if name = Settings.regionVariable then region
    else none
  let exit := CommandLine.run args (fun path => (files.lookup path).getD (.error .notFound))
    environment
  IO.print exit.stdout
  IO.eprint exit.stderr
  return exit.code.toUInt32
