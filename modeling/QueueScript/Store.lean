import QueueScript.Log
import QueueScript.Request
import QueueScript.Table
/-!
A queue service that keeps its messages in memory. A message that was received with a visibility
timeout is hidden until the timeout is over, and can then be received again.
-/

namespace QueueScript

structure Delivery where
  messageId : String
  receiptHandle : String
  body : String
  deriving DecidableEq, Repr

inductive Response where
  | sent (messageId : String)
  | received (messages : List Delivery)
  | purged
  deriving DecidableEq, Repr

inductive ServiceError where
  | queueNotFound (queue : String)
  | rejected (message : String)
  | unavailable (reason : String)
  deriving DecidableEq, Repr

def ServiceError.message : ServiceError → String
  | .queueNotFound queue => "Queue not found: " ++ queue
  | .rejected message => "Request rejected: " ++ message
  | .unavailable reason => "Queue service unavailable: " ++ reason

inductive ExecuteError where
  | missingBody (e : MissingBody)
  | service (e : ServiceError)
  | cancelled (line : Nat)
  deriving DecidableEq, Repr

def ExecuteError.message : ExecuteError → String
  | .missingBody e => e.message
  | .service e => e.message
  | .cancelled line => "Run for line " ++ toString line ++ " was cancelled"

structure Message where
  number : Nat
  body : String
  deliveries : Nat
  hiddenUntil : Option Nat
  deriving DecidableEq, Repr

namespace Message

def id (m : Message) : String := "msg-" ++ toString m.number

def isVisible (now : Nat) (m : Message) : Bool := m.hiddenUntil.all (fun t => t ≤ now)

-- A timeout of zero leaves a message as visible as it was.
def delivered (now timeout : Nat) (m : Message) : Message :=
  { m with
    deliveries := m.deliveries + 1
    hiddenUntil := if timeout = 0 then m.hiddenUntil else some (now + timeout) }

def delivery (m : Message) : Delivery :=
  ⟨m.id, m.id ++ "-r" ++ toString m.deliveries, m.body⟩

end Message

abbrev Queue := List Message

def Queue.receive (now timeout : Nat) : Nat → Queue → Queue × List Delivery
  | _, [] => ([], [])
  | 0, q => (q, [])
  | n + 1, m :: q =>
      if m.isVisible now then
        let m := m.delivered now timeout
        let (q, ds) := Queue.receive now timeout n q
        (m :: q, m.delivery :: ds)
      else
        let (q, ds) := Queue.receive now timeout (n + 1) q
        (m :: q, ds)

/-- The queues, the number of the next message, and what the clock reads, in nanoseconds. -/
structure Store where
  queues : Table String Queue := []
  next : Nat := 1
  now : Nat := 0

namespace Store

def create (s : Store) (queue : String) : Store :=
  match Table.lookup queue s.queues with
  | some _ => s
  | none => { s with queues := Table.insert queue [] s.queues }

def bodies (s : Store) (queue : String) : List String :=
  ((Table.lookup queue s.queues).getD []).map Message.body

def setQueue (s : Store) (queue : String) (q : Queue) : Store :=
  { s with queues := Table.insert queue q s.queues }

def receiveLimit : Nat := 10

def second : Nat := 1000000000

def serve (s : Store) (q : Queue) : Request → Store × Except ServiceError Response
  | .send queue body _ =>
      let m : Message := ⟨s.next, body, 0, none⟩
      ({ s.setQueue queue (q ++ [m]) with next := s.next + 1 }, .ok (.sent m.id))
  | .receive queue maxMessages visibilityTimeout _ =>
      if 1 ≤ maxMessages.toNat ∧ maxMessages.toNat ≤ receiveLimit then
        let (q, ds) := q.receive s.now (visibilityTimeout.toNat * second) maxMessages.toNat
        (s.setQueue queue q, .ok (.received ds))
      else
        (s, .error (.rejected ("max messages must be between 1 and 10, got " ++
          toString maxMessages.toNat)))
  | .purge queue => (s.setQueue queue [], .ok .purged)

def call (s : Store) (r : Request) : Store × Except ServiceError Response :=
  match Table.lookup r.queue s.queues with
  | none => (s, .error (.queueNotFound r.queue))
  | some q => s.serve q r

def execute (s : Store) (c : Command) : Store × Except ExecuteError Response :=
  match Invocation.ofCommand c with
  | .error e => (s, .error (.missingBody e))
  | .ok i =>
      match s.call i.request with
      | (s, .ok response) => (s, .ok response)
      | (s, .error e) => (s, .error (.service e))

def executeAll (s : Store) : List Command → Store × List (Except ExecuteError Response)
  | [] => (s, [])
  | c :: cs =>
      let (s, result) := s.execute c
      let (s, results) := s.executeAll cs
      (s, result :: results)

end Store

namespace Log

def running (c : Command) (context : Context) : Entry :=
  ⟨.info, "Running '" ++ c.title ++ "' as " ++ context.profile ++ " in " ++ context.region⟩

def called (i : Invocation) : Entry :=
  ⟨.debug, "In-memory call to " ++ i.request.queue ++ " as " ++ i.context.profile ++ " in " ++
    i.context.region⟩

def ofExecute (c : Command) : List Entry :=
  match Invocation.ofCommand c with
  | .error _ => []
  | .ok i => [running c i.context, called i]

end Log

end QueueScript
