import QueueScript.ReadFailure
/-!
A folder of files that is held in memory, so that the command line can be run without a disk.

A path is walked step by step. Around the folder only what every system has is known: the root, the
usual directories in it, of which `tmp` holds the folder, and the empty file `dev/null`.
-/

namespace QueueScript.CommandLine

abbrev Content := ByteArray

def decode (bytes : Content) : Except ReadFailure String :=
  match String.fromUTF8? bytes with
  | some text => .ok text
  | none => .error .notUtf8

inductive Place where
  | root
  | system (name : String)
  | folder
  | file (content : Content)

def Place.parent : Place → Place
  | .folder => .system "tmp"
  | _ => .root

def systemDirectories : List String :=
  ["bin", "dev", "etc", "home", "lib", "proc", "root", "run", "sbin", "sys", "tmp", "usr", "var"]

structure Folder where
  files : List (String × Content)

namespace Folder

def stepLimit : Nat := 255

def pathLimit : Nat := 4096

def entry (f : Folder) (name : String) : Place → Except ReadFailure Place
  | .root => if systemDirectories.contains name then .ok (.system name) else .error .notFound
  | .system directory =>
      if directory = "dev" ∧ name = "null" then .ok (.file .empty) else .error .notFound
  | .folder =>
      match f.files.lookup name with
      | some content => .ok (.file content)
      | none => .error .notFound
  | .file _ => .error .notDirectory

/-- Goes one step from a place. The empty step, which stands between two strokes and after a last
one, stays in the place as `.` does; no step leads on from a file, not even one that stays. -/
def step (f : Folder) (place : Place) (name : String) : Except ReadFailure Place :=
  match place with
  | .file _ => .error .notDirectory
  | directory =>
      if name = "" ∨ name = "." then .ok directory
      else if name = ".." then .ok directory.parent
      else if stepLimit < name.utf8ByteSize then .error .nameTooLong
      else f.entry name directory

def walk (f : Folder) (path : String) : Except ReadFailure Place :=
  (path.splitOn "/").foldlM f.step (if path.startsWith "/" then .root else .folder)

def read (f : Folder) (path : String) : Except ReadFailure String :=
  if path.contains (Char.ofNat 0) then .error .nulInPath
  else if path = "" then .error .notFound
  else if pathLimit ≤ path.utf8ByteSize then .error .nameTooLong
  else match f.walk path with
    | .ok (.file content) => decode content
    | .ok _ => .error .isDirectory
    | .error failure => .error failure

end Folder

end QueueScript.CommandLine
