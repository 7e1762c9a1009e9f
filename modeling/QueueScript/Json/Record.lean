import QueueScript.Json.Skip
/-!
Reading JSON as values of a known type. A text that does not fit fails where the misfit shows: after
a scalar, before a container, or after the end of a container that lacks something.
-/

namespace QueueScript.Json

def mismatch (expected : String) : Reader α := fun s =>
  match skipSpace s with
  | '[' :: r => .error (.before (.wrongType .list expected) ('[' :: r))
  | '{' :: r => .error (.before (.wrongType .object expected) ('{' :: r))
  | s => do
      let (v, r) ← readValue 0 s
      .error (.before (.wrongType (.ofJson v) expected) r)

def readText : Reader String := fun s =>
  match skipSpace s with
  | '"' :: r => do
      let (cs, r) ← readString r
      return (String.ofList cs, r)
  | s => mismatch "a string" s

def readBool : Reader Bool := fun s =>
  match skipSpace s with
  | 't' :: r => readLiteral true ['r', 'u', 'e'] r
  | 'f' :: r => readLiteral false ['a', 'l', 's', 'e'] r
  | s => mismatch "a boolean" s

def readNull : Reader Unit := fun s =>
  match skipSpace s with
  | 'n' :: r => readLiteral () ['u', 'l', 'l'] r
  | s => mismatch "unit" s

def readNat (limit : Nat) (expected : String) : Reader Nat := fun s =>
  match skipSpace s with
  | c :: r =>
      if c = '-' ∨ Text.isDigit c = true then do
        let (v, rest) ← readValue 0 (c :: r)
        match v with
        | .number (.whole n) =>
            if 0 ≤ n ∧ n < limit then return (n.toNat, rest)
            else .error (.before (.wrongValue n expected) rest)
        | v => .error (.before (.wrongType (.ofJson v) expected) rest)
      else mismatch expected (c :: r)
  | [] => mismatch expected []

def readCount : Reader UInt32 := fun s => do
  let (n, r) ← readNat Text.countLimit "u32" s
  return (UInt32.ofNat n, r)

def lineLimit : Nat := 18446744073709551616 -- 2 ^ 64

def readLine : Reader Nat := readNat lineLimit "usize"

def readOption (read : Reader α) : Reader (Option α) := fun s =>
  match skipSpace s with
  | 'n' :: r => readLiteral none ['u', 'l', 'l'] r
  | s => do
      let (a, r) ← read s
      return (some a, r)

def readList (read : Reader α) : Reader (List α) := fun s =>
  match skipSpace s with
  | '[' :: r => readItems read (r.length + 1) true r
  | s => mismatch "a sequence" s

def readName (known : List (String × α)) : Reader α := fun s => do
  let (cs, r) ← readString s
  match known.lookup (String.ofList cs) with
  | some a => return (a, r)
  | none => .error (.before (.unknownName (String.ofList cs) (known.map Prod.fst)) r)

def readTag (known : List (String × α)) : Reader α := fun s =>
  match skipSpace s with
  | [] => .error (.at .endInObject [])
  | '"' :: r => do
      let (a, r) ← readName known r
      return (a, ← colon r)
  | '}' :: r => .error (.at .expectedValue ('}' :: r))
  | c :: r => .error (.at .keyNotString (c :: r))

def closeTagged (s : List Char) : Except Fault (List Char) :=
  match skipSpace s with
  | [] => .error (.before .endInObject [])
  | '}' :: r => .ok r
  | c :: r => .error (.before .expectedValue (c :: r))

def readChoice (known : List (String × α)) : Reader α := fun s =>
  match skipSpace s with
  | [] => .error (.at .endInValue [])
  | '"' :: r => readName known r
  | '{' :: r => do
      let (a, r) ← readTag known r
      let (_, r) ← readNull r
      return (a, ← closeTagged r)
  | c :: r => .error (.at .expectedValue (c :: r))

def pastItem (s : List Char) : List Char :=
  match skipSpace s with
  | ']' :: r => r
  | ',' :: r => skipSpace r
  | r => r

def pastObject (s : List Char) : List Char :=
  match skipSpace s with
  | '}' :: r => r
  | r => r

def readTagged (known : List (String × Reader α)) : Reader α := fun s =>
  match skipSpace s with
  | [] => .error (.at .endInValue [])
  | '"' :: r => do
      let (_, r) ← readName known r
      .error (.before (.wrongType .bareTag "struct variant") (pastItem r))
  | '{' :: r => do
      let (read, r) ← readTag known r
      let (a, r) ← read r
      return (a, ← closeTagged r)
  | c :: r => .error (.at .expectedValue (c :: r))

structure RecordField (δ : Type) where
  name : String
  isSet : δ → Bool
  read : δ → Reader δ

def RecordField.of (name : String) (get : δ → Option β) (set : δ → β → δ) (read : Reader β) :
    RecordField δ where
  name := name
  isSet d := (get d).isSome
  read d s := do
    let (b, r) ← read s
    return (set d b, r)

/-- How a record is read: as an object, with its fields under their names in any order, or as a
list, with its fields in the order given here. -/
structure Record (δ α : Type) where
  expected : String
  empty : δ
  fields : List (RecordField δ)
  least : Nat
  build : δ → Except String α

namespace Record

def readMember (f : Record δ α) (d : δ) (key : String) : Reader δ := fun s =>
  match f.fields.find? (fun field => field.name == key) with
  | none => do
      let r ← skipValue (← colon s)
      return (d, r)
  | some field => do
      if field.isSet d then .error (.before (.duplicateField key) (pastObject s))
      else field.read d (← colon s)

def closeItems (s : List Char) : Except Fault (List Char) :=
  match skipSpace s with
  | [] => .error (.at .endInList [])
  | ']' :: r => .ok r
  | ',' :: r =>
      match skipSpace r with
      | ']' :: t => .error (.at .trailingComma (']' :: t))
      | t => .error (.at .trailingText t)
  | c :: r => .error (.at .trailingText (c :: r))

def readFields (f : Record δ α) : Nat → List (RecordField δ) → δ → Reader δ
  | _, [], d, s => do return (d, ← closeItems s)
  | n, field :: fields, d, s => do
      match ← nextItem (n == 0) s with
      | .done r =>
          if n < f.least then
            let expected := f.expected ++ " with " ++ toString f.fields.length ++ " elements"
            .error (.before (.wrongLength n expected) r)
          else return (d, r)
      | .more r =>
          let (d, r) ← field.read d r
          readFields f (n + 1) fields d r

def finish (f : Record δ α) (d : δ) : Reader α := fun s =>
  match f.build d with
  | .ok a => .ok (a, s)
  | .error name => .error (.before (.missingField name) s)

def read (f : Record δ α) : Reader α := fun s =>
  match skipSpace s with
  | '{' :: r => do
      let (d, r) ← readMembers f.readMember (r.length + 1) true f.empty r
      f.finish d r
  | '[' :: r => do
      let (d, r) ← f.readFields 0 f.fields f.empty r
      f.finish d r
  | s => mismatch f.expected s

end Record

end QueueScript.Json
