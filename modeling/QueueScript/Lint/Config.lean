import QueueScript.Json.Record

namespace QueueScript.Lint

open Json (Record readText readBool readCount readList)

structure BodyConfig where
  enabled : Bool := true
  requireBody : Bool := true
  deriving DecidableEq, Repr

structure ReceiveConfig where
  enabled : Bool := true
  minMaxMessages : UInt32 := 1
  maxMaxMessages : UInt32 := 10
  maxVisibilityTimeout : UInt32 := 43200
  maxWaitTime : UInt32 := 20
  deriving DecidableEq, Repr

structure TargetConfig where
  enabled : Bool := true
  schemes : List String := ["https", "http"]
  deriving DecidableEq, Repr

structure Config where
  body : BodyConfig := {}
  receive : ReceiveConfig := {}
  target : TargetConfig := {}
  deriving DecidableEq, Repr

def BodyConfig.toJson (c : BodyConfig) : Json :=
  .object [("enabled", .bool c.enabled), ("requireBody", .bool c.requireBody)]

def ReceiveConfig.toJson (c : ReceiveConfig) : Json :=
  .object [("enabled", .bool c.enabled), ("minMaxMessages", .ofNat c.minMaxMessages.toNat),
    ("maxMaxMessages", .ofNat c.maxMaxMessages.toNat),
    ("maxVisibilityTimeout", .ofNat c.maxVisibilityTimeout.toNat),
    ("maxWaitTime", .ofNat c.maxWaitTime.toNat)]

def TargetConfig.toJson (c : TargetConfig) : Json :=
  .object [("enabled", .bool c.enabled), ("schemes", .array (c.schemes.map .string))]

def Config.toJson (c : Config) : Json :=
  .object [("body", c.body.toJson), ("receive", c.receive.toJson), ("target", c.target.toJson)]

structure BodyConfig.Draft where
  enabled : Option Bool := none
  requireBody : Option Bool := none

def BodyConfig.record : Record BodyConfig.Draft BodyConfig where
  expected := "struct BodyConfig"
  empty := {}
  fields :=
    [.of "enabled" (·.enabled) (fun d b => { d with enabled := some b }) readBool,
     .of "requireBody" (·.requireBody) (fun d b => { d with requireBody := some b }) readBool]
  least := 0
  build d :=
    let default : BodyConfig := {}
    .ok ⟨d.enabled.getD default.enabled, d.requireBody.getD default.requireBody⟩

structure ReceiveConfig.Draft where
  enabled : Option Bool := none
  minMaxMessages : Option UInt32 := none
  maxMaxMessages : Option UInt32 := none
  maxVisibilityTimeout : Option UInt32 := none
  maxWaitTime : Option UInt32 := none

def ReceiveConfig.record : Record ReceiveConfig.Draft ReceiveConfig where
  expected := "struct ReceiveConfig"
  empty := {}
  fields :=
    [.of "enabled" (·.enabled) (fun d b => { d with enabled := some b }) readBool,
     .of "minMaxMessages" (·.minMaxMessages) (fun d n => { d with minMaxMessages := some n })
      readCount,
     .of "maxMaxMessages" (·.maxMaxMessages) (fun d n => { d with maxMaxMessages := some n })
      readCount,
     .of "maxVisibilityTimeout" (·.maxVisibilityTimeout)
      (fun d n => { d with maxVisibilityTimeout := some n }) readCount,
     .of "maxWaitTime" (·.maxWaitTime) (fun d n => { d with maxWaitTime := some n }) readCount]
  least := 0
  build d :=
    let default : ReceiveConfig := {}
    .ok {
      enabled := d.enabled.getD default.enabled
      minMaxMessages := d.minMaxMessages.getD default.minMaxMessages
      maxMaxMessages := d.maxMaxMessages.getD default.maxMaxMessages
      maxVisibilityTimeout := d.maxVisibilityTimeout.getD default.maxVisibilityTimeout
      maxWaitTime := d.maxWaitTime.getD default.maxWaitTime }

structure TargetConfig.Draft where
  enabled : Option Bool := none
  schemes : Option (List String) := none

def TargetConfig.record : Record TargetConfig.Draft TargetConfig where
  expected := "struct TargetConfig"
  empty := {}
  fields :=
    [.of "enabled" (·.enabled) (fun d b => { d with enabled := some b }) readBool,
     .of "schemes" (·.schemes) (fun d s => { d with schemes := some s }) (readList readText)]
  least := 0
  build d :=
    let default : TargetConfig := {}
    .ok ⟨d.enabled.getD default.enabled, d.schemes.getD default.schemes⟩

structure Config.Draft where
  body : Option BodyConfig := none
  receive : Option ReceiveConfig := none
  target : Option TargetConfig := none

def Config.record : Record Config.Draft Config where
  expected := "struct LintConfig"
  empty := {}
  fields :=
    [.of "body" (·.body) (fun d c => { d with body := some c }) BodyConfig.record.read,
     .of "receive" (·.receive) (fun d c => { d with receive := some c }) ReceiveConfig.record.read,
     .of "target" (·.target) (fun d c => { d with target := some c }) TargetConfig.record.read]
  least := 0
  build d := .ok ⟨d.body.getD {}, d.receive.getD {}, d.target.getD {}⟩

def Config.ofText (text : String) : Except Json.ReadError Config :=
  Json.readWhole record.read text.toList

end QueueScript.Lint
