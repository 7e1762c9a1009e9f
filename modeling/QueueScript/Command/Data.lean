import QueueScript.Command.Basic
import QueueScript.Json.Record

namespace QueueScript

open Json (Reader Record RecordField readText readLine readCount readOption readList readChoice)

def LineRange.toJson (r : LineRange) : Json :=
  .object [("start_line", .ofNat r.first), ("end_line", .ofNat r.last)]

def Parameter.toJson (p : Parameter) : Json :=
  .object [("key", .string p.key.name), ("value", .string p.value), ("line", .ofNat p.line)]

def Warning.toJson : Warning → Json
  | .malformedBody line message =>
      .object [("MalformedBody", .object [("line", .ofNat line), ("message", .string message)])]
  | .invalidNumber key value line =>
      .object [("InvalidNumber",
        .object [("key", .string key), ("value", .string value), ("line", .ofNat line)])]

def countJson (n : Option UInt32) : Json := Json.ofOption (fun n => .ofNat n.toNat) n

def listMember (name : String) (values : List Json) : List (String × Json) :=
  if values.isEmpty then [] else [(name, .array values)]

def Command.toJson (c : Command) : Json :=
  .object <|
    [("kind", .string c.kind.name), ("target", .string c.target), ("profile", .string c.profile),
      ("region", .string c.region), ("body", c.body.getD .null),
      ("attributes", c.attributes.getD .null), ("max_messages", countJson c.maxMessages),
      ("visibility_timeout_seconds", countJson c.visibilityTimeout),
      ("wait_time_seconds", countJson c.waitTime), ("range", c.range.toJson),
      ("body_range", .ofOption LineRange.toJson c.bodyRange)] ++
    listMember "parameters" (c.parameters.map Parameter.toJson) ++
    listMember "warnings" (c.warnings.map Warning.toJson)

def require (name : String) (a : Option α) : Except String α :=
  match a with
  | some a => .ok a
  | none => .error name

structure LineRange.Draft where
  first : Option Nat := none
  last : Option Nat := none

def LineRange.record : Record LineRange.Draft LineRange where
  expected := "struct SourceRange"
  empty := {}
  fields :=
    [.of "start_line" (·.first) (fun d n => { d with first := some n }) readLine,
     .of "end_line" (·.last) (fun d n => { d with last := some n }) readLine]
  least := 2
  build d := do return ⟨← require "start_line" d.first, ← require "end_line" d.last⟩

structure Parameter.Draft where
  key : Option ParameterKey := none
  value : Option String := none
  line : Option Nat := none

def Parameter.record : Record Parameter.Draft Parameter where
  expected := "struct ParameterEntry"
  empty := {}
  fields :=
    [.of "key" (·.key) (fun d k => { d with key := some k })
      (readChoice (ParameterKey.all.map (fun k => (k.name, k)))),
     .of "value" (·.value) (fun d v => { d with value := some v }) readText,
     .of "line" (·.line) (fun d n => { d with line := some n }) readLine]
  least := 3
  build d := do
    return ⟨← require "key" d.key, ← require "value" d.value, ← require "line" d.line⟩

structure Warning.Draft where
  key : Option String := none
  text : Option String := none
  line : Option Nat := none

def Warning.lineField : RecordField Warning.Draft :=
  .of "line" (·.line) (fun d n => { d with line := some n }) readLine

def Warning.malformedBodyRecord : Record Warning.Draft Warning where
  expected := "struct variant ParseWarning::MalformedBody"
  empty := {}
  fields := [lineField, .of "message" (·.text) (fun d s => { d with text := some s }) readText]
  least := 2
  build d := do return .malformedBody (← require "line" d.line) (← require "message" d.text)

def Warning.invalidNumberRecord : Record Warning.Draft Warning where
  expected := "struct variant ParseWarning::InvalidNumber"
  empty := {}
  fields :=
    [.of "key" (·.key) (fun d s => { d with key := some s }) readText,
     .of "value" (·.text) (fun d s => { d with text := some s }) readText, lineField]
  least := 3
  build d := do
    return .invalidNumber (← require "key" d.key) (← require "value" d.text)
      (← require "line" d.line)

def Warning.read : Reader Warning :=
  Json.readTagged
    [("MalformedBody", malformedBodyRecord.read), ("InvalidNumber", invalidNumberRecord.read)]

structure Command.Draft where
  kind : Option Kind := none
  target : Option String := none
  profile : Option String := none
  region : Option String := none
  body : Option (Option Json) := none
  attributes : Option (Option Json) := none
  maxMessages : Option (Option UInt32) := none
  visibilityTimeout : Option (Option UInt32) := none
  waitTime : Option (Option UInt32) := none
  range : Option LineRange := none
  bodyRange : Option (Option LineRange) := none
  parameters : Option (List Parameter) := none
  warnings : Option (List Warning) := none

def Command.readPayload : Reader (Option Json) := readOption (Json.readValue (Json.maxDepth - 2))

def Command.record : Record Command.Draft Command where
  expected := "struct Command"
  empty := {}
  fields :=
    [.of "kind" (·.kind) (fun d k => { d with kind := some k })
      (readChoice (Kind.all.map (fun k => (k.name, k)))),
     .of "target" (·.target) (fun d s => { d with target := some s }) readText,
     .of "profile" (·.profile) (fun d s => { d with profile := some s }) readText,
     .of "region" (·.region) (fun d s => { d with region := some s }) readText,
     .of "body" (·.body) (fun d v => { d with body := some v }) readPayload,
     .of "attributes" (·.attributes) (fun d v => { d with attributes := some v }) readPayload,
     .of "max_messages" (·.maxMessages) (fun d n => { d with maxMessages := some n })
      (readOption readCount),
     .of "visibility_timeout_seconds" (·.visibilityTimeout)
      (fun d n => { d with visibilityTimeout := some n }) (readOption readCount),
     .of "wait_time_seconds" (·.waitTime) (fun d n => { d with waitTime := some n })
      (readOption readCount),
     .of "range" (·.range) (fun d r => { d with range := some r }) LineRange.record.read,
     .of "body_range" (·.bodyRange) (fun d r => { d with bodyRange := some r })
      (readOption LineRange.record.read),
     .of "parameters" (·.parameters) (fun d ps => { d with parameters := some ps })
      (readList Parameter.record.read),
     .of "warnings" (·.warnings) (fun d ws => { d with warnings := some ws })
      (readList Warning.read)]
  least := 11
  build d := do
    return {
      kind := ← require "kind" d.kind
      target := ← require "target" d.target
      profile := ← require "profile" d.profile
      region := ← require "region" d.region
      body := d.body.getD none
      attributes := d.attributes.getD none
      maxMessages := d.maxMessages.getD none
      visibilityTimeout := d.visibilityTimeout.getD none
      waitTime := d.waitTime.getD none
      range := ← require "range" d.range
      bodyRange := d.bodyRange.getD none
      parameters := d.parameters.getD []
      warnings := d.warnings.getD [] }

def Command.readAll (text : String) : Except Json.ReadError (List Command) :=
  Json.readWhole (readList record.read) text.toList

end QueueScript
