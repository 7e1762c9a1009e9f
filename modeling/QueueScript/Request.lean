import QueueScript.Command.Data
import QueueScript.Json.Writer

namespace QueueScript

inductive Request where
  | send (queue body : String) (attributes : Option Json)
  | receive (queue : String) (maxMessages visibilityTimeout waitTime : UInt32)
  | purge (queue : String)

def Request.queue : Request → String
  | .send queue _ _ => queue
  | .receive queue _ _ _ => queue
  | .purge queue => queue

structure Context where
  profile : String
  region : String
  deriving DecidableEq, Repr

structure Invocation where
  context : Context
  request : Request

structure MissingBody where
  target : String
  line : Nat
  deriving DecidableEq, Repr

def MissingBody.message (e : MissingBody) : String :=
  "SEND to '" ++ e.target ++ "' at line " ++ toString e.line ++ " has no valid JSON body"

namespace Request

def defaultMaxMessages : UInt32 := 10

def defaultVisibilityTimeout : UInt32 := 30

def defaultWaitTime : UInt32 := 0

def ofCommand (c : Command) : Except MissingBody Request :=
  match c.kind with
  | .send =>
      match c.body with
      | some body => .ok (.send c.target body.compact c.attributes)
      | none => .error ⟨c.target, c.range.first + 1⟩
  | .receive =>
      .ok (.receive c.target (c.maxMessages.getD defaultMaxMessages)
        (c.visibilityTimeout.getD defaultVisibilityTimeout) (c.waitTime.getD defaultWaitTime))
  | .purge => .ok (.purge c.target)

def toJson : Request → Json
  | .send queue body attributes =>
      .object [("operation", .string "SendMessage"), ("queue_url", .string queue),
        ("message_body", .string body), ("message_attributes", attributes.getD .null)]
  | .receive queue maxMessages visibilityTimeout waitTime =>
      .object [("operation", .string "ReceiveMessage"), ("queue_url", .string queue),
        ("max_messages", .ofNat maxMessages.toNat),
        ("visibility_timeout", .ofNat visibilityTimeout.toNat),
        ("wait_time_seconds", .ofNat waitTime.toNat)]
  | .purge queue => .object [("operation", .string "PurgeQueue"), ("queue_url", .string queue)]

end Request

namespace Invocation

def ofCommand (c : Command) : Except MissingBody Invocation := do
  return ⟨⟨c.profile, c.region⟩, ← Request.ofCommand c⟩

def toJson (i : Invocation) : Json :=
  .object [
    ("context",
      .object [("profile", .string i.context.profile), ("region", .string i.context.region)]),
    ("request", i.request.toJson)]

end Invocation

end QueueScript
