import QueueScript.Json.Reader
import QueueScript.Script.Line
import QueueScript.Text.Lines
import QueueScript.Text.Numeral

namespace QueueScript.Script

structure Defaults where
  profile : String
  region : String
  deriving DecidableEq, Repr

structure Draft where
  kind : Kind
  target : String
  profile : String
  region : String
  body : Option Json
  bodyRange : Option LineRange
  maxMessages : Option UInt32
  visibilityTimeout : Option UInt32
  waitTime : Option UInt32
  parameters : List Parameter
  warnings : List Warning
  first : Nat

structure OpenBody where
  first : Nat
  last : Nat
  lines : List Line
  depth : Int

namespace OpenBody

/-- Braces are counted wherever they stand, in strings too. -/
def braceBalance (line : Line) : Int := (line.count '{' : Int) - (line.count '}' : Int)

def start (index : Nat) (line : Line) : OpenBody := ⟨index, index, [line], braceBalance line⟩

def push (b : OpenBody) (index : Nat) (line : Line) : OpenBody :=
  { b with last := index, lines := b.lines ++ [line], depth := b.depth + braceBalance line }

def isClosed (b : OpenBody) : Bool := decide (b.depth ≤ 0)

def text (b : OpenBody) : List Char := Text.joinLines b.lines

end OpenBody

namespace Draft

def start (d : Defaults) (kind : Kind) (target : String) (index : Nat) : Draft where
  kind := kind
  target := target
  profile := d.profile
  region := d.region
  body := none
  bodyRange := none
  maxMessages := none
  visibilityTimeout := none
  waitTime := none
  parameters := []
  warnings := []
  first := index

def record (d : Draft) (p : Parameter) : Draft := { d with parameters := d.parameters ++ [p] }

def warn (d : Draft) (w : Warning) : Draft := { d with warnings := d.warnings ++ [w] }

def setCount (d : Draft) (p : Parameter) (store : UInt32 → Draft) : Draft :=
  match Text.count? p.value.toList with
  | some n => (store n).record p
  | none => d.warn (.invalidNumber p.key.name p.value p.line)

def set (d : Draft) (p : Parameter) : Draft :=
  match p.key with
  | .profile => { d with profile := p.value }.record p
  | .region => { d with region := p.value }.record p
  | .maxMessages => d.setCount p (fun n => { d with maxMessages := some n })
  | .visibilityTimeout => d.setCount p (fun n => { d with visibilityTimeout := some n })
  | .waitTime => d.setCount p (fun n => { d with waitTime := some n })

/-- The body is the JSON value of its text; it takes the place of an earlier body also when it is
malformed. -/
def resolve (d : Draft) (b : OpenBody) : Draft :=
  let d := { d with bodyRange := some ⟨b.first, b.last⟩ }
  match Json.parse b.text with
  | .ok v => { d with body := some v }
  | .error e => { d with body := none }.warn (.malformedBody b.first e.message)

def finish (d : Draft) (last : Nat) : Command where
  kind := d.kind
  target := d.target
  profile := d.profile
  region := d.region
  body := d.body
  attributes := none
  maxMessages := d.maxMessages
  visibilityTimeout := d.visibilityTimeout
  waitTime := d.waitTime
  range := ⟨d.first, last⟩
  bodyRange := d.bodyRange
  parameters := d.parameters
  warnings := d.warnings

end Draft

end QueueScript.Script
