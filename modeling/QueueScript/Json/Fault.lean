import QueueScript.Json.Basic
import QueueScript.Decimal.Text
import QueueScript.Text.Quoted

namespace QueueScript.Json

inductive Found where
  | null
  | boolean (b : Bool)
  | number (n : Number)
  | text (s : String)
  | list
  | object
  | bareTag

def Found.ofJson : Json → Found
  | .null => .null
  | .bool b => .boolean b
  | .number n => .number n
  | .string s => .text s
  | .array _ => .list
  | .object _ => .object

def Found.message : Found → String
  | .null => "null"
  | .boolean true => "boolean `true`"
  | .boolean false => "boolean `false`"
  | .number (.whole n) => "integer `" ++ toString n ++ "`"
  | .number (.float x) => "floating point `" ++ String.ofList (Decimal.floatText x) ++ "`"
  | .text s => "string " ++ String.ofList (Text.quote s.toList)
  | .list => "sequence"
  | .object => "map"
  | .bareTag => "unit variant"

inductive Cause where
  | endInValue
  | endInString
  | endInList
  | endInObject
  | expectedValue
  | expectedLiteral
  | expectedColon
  | expectedListEnd
  | expectedObjectEnd
  | keyNotString
  | trailingComma
  | trailingText
  | badNumber
  | numberRange
  | controlCharacter
  | badEscape
  | unpairedSurrogate
  | brokenPair
  | tooDeep
  | wrongType (found : Found) (expected : String)
  | wrongValue (n : Int) (expected : String)
  | wrongLength (n : Nat) (expected : String)
  | unknownName (name : String) (known : List String)
  | missingField (name : String)
  | duplicateField (name : String)

def expectedNames (known : List String) : String :=
  match known with
  | [a] => "`" ++ a ++ "`"
  | [a, b] => "`" ++ a ++ "` or `" ++ b ++ "`"
  | _ => "one of " ++ String.intercalate ", " (known.map (fun a => "`" ++ a ++ "`"))

def Cause.message : Cause → String
  | .endInValue => "EOF while parsing a value"
  | .endInString => "EOF while parsing a string"
  | .endInList => "EOF while parsing a list"
  | .endInObject => "EOF while parsing an object"
  | .expectedValue => "expected value"
  | .expectedLiteral => "expected ident"
  | .expectedColon => "expected `:`"
  | .expectedListEnd => "expected `,` or `]`"
  | .expectedObjectEnd => "expected `,` or `\x7d`"
  | .keyNotString => "key must be a string"
  | .trailingComma => "trailing comma"
  | .trailingText => "trailing characters"
  | .badNumber => "invalid number"
  | .numberRange => "number out of range"
  | .controlCharacter => "control character (\\u0000-\\u001F) found while parsing a string"
  | .badEscape => "invalid escape"
  | .unpairedSurrogate => "lone leading surrogate in hex escape"
  | .brokenPair => "unexpected end of hex escape"
  | .tooDeep => "recursion limit exceeded"
  | .wrongType found expected => "invalid type: " ++ found.message ++ ", expected " ++ expected
  | .wrongValue n expected => "invalid value: integer `" ++ toString n ++ "`, expected " ++ expected
  | .wrongLength n expected => "invalid length " ++ toString n ++ ", expected " ++ expected
  | .unknownName name known =>
      "unknown variant `" ++ name ++ "`, expected " ++ expectedNames known
  | .missingField name => "missing field `" ++ name ++ "`"
  | .duplicateField name => "duplicate field `" ++ name ++ "`"

def byteLength (s : List Char) : Nat := s.foldl (fun n c => n + c.utf8Size) 0

structure Fault where
  cause : Cause
  left : Nat

def Fault.before (cause : Cause) (rest : List Char) : Fault := ⟨cause, byteLength rest⟩

def Fault.into (n : Nat) (cause : Cause) (rest : List Char) : Fault := ⟨cause, byteLength rest - n⟩

def Fault.at (cause : Cause) (rest : List Char) : Fault := .into 1 cause rest

structure ReadError where
  cause : Cause
  line : Nat
  column : Nat

def ReadError.message (e : ReadError) : String :=
  e.cause.message ++ " at line " ++ toString e.line ++ " column " ++ toString e.column

def locate : List Char → Nat → Nat → Nat → Nat × Nat
  | [], _, line, column => (line, column)
  | c :: s, bytes, line, column =>
      if bytes = 0 then (line, column)
      else if c = '\n' then locate s (bytes - 1) (line + 1) 0
      else if c.utf8Size ≤ bytes then locate s (bytes - c.utf8Size) line (column + c.utf8Size)
      else (line, column + bytes)

def Fault.locate (f : Fault) (text : List Char) : ReadError :=
  let (line, column) := Json.locate text (byteLength text - f.left) 1 0
  ⟨f.cause, line, column⟩

abbrev Reader (α : Type) := List Char → Except Fault (α × List Char)

end QueueScript.Json
