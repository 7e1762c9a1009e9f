import QueueScript.Store
/-!
Runs of commands that overlap and can be cancelled, on a clock that moves only when told.

A run belongs to the header line of its command, its key. It is registered under the key when it is
created and starts at the next poll. A service takes a fixed time for a call, so the runs that have
started finish in the order in which they were created. A newer run of the same key aborts the
older one. Times are in milliseconds; the clock that a store reads is another one and stands still.
-/

namespace QueueScript

inductive Service where
  | memory (store : Store) (latency : Nat)
  | failing (error : ServiceError)
  | broken (text : String)

inductive Outcome where
  | result (r : Except ExecuteError Response)
  | breakdown (text : String)

inductive Phase where
  | waiting
  | started (invocation : Invocation) (deadline : Nat)
  | finished (outcome : Outcome)
  | aborted

structure Run where
  id : Nat
  key : Nat
  command : Command
  phase : Phase
  taken : Bool

def Run.outcome? (run : Run) : Option Outcome :=
  match run.phase with
  | .finished o => some o
  | .aborted => some (.result (.error (.cancelled (run.key + 1))))
  | _ => none

structure Bench where
  service : Service
  registry : Table Nat Nat
  log : List Log.Entry

structure Runner where
  bench : Bench
  runs : List Run
  now : Nat

namespace Bench

def tell (b : Bench) (e : Log.Entry) : Bench := { b with log := b.log ++ [e] }

/-- Takes the entry of a run off the registry, unless a newer run has the key. -/
def deregister (b : Bench) (r : Run) : Bench :=
  if Table.lookup r.key b.registry = some r.id then
    { b with registry := Table.erase r.key b.registry }
  else b

def finish (b : Bench) (r : Run) (o : Outcome) : Bench × Run :=
  (b.deregister r, { r with phase := .finished o })

def call (b : Bench) (r : Run) (i : Invocation) : Bench × Run :=
  match b.service with
  | .memory store latency =>
      let (store, answer) := store.call i.request
      let b := { b with service := .memory store latency }.tell (Log.called i)
      b.finish r (.result (answer.mapError .service))
  | .failing error => b.finish r (.result (.error (.service error)))
  | .broken text => b.finish r (.breakdown (text ++ " " ++ i.request.queue))

def wait (b : Bench) : Nat :=
  match b.service with
  | .memory _ latency => latency
  | _ => 0

def start (now : Nat) (b : Bench) (r : Run) : Bench × Run :=
  match r.phase with
  | .waiting =>
      match Invocation.ofCommand r.command with
      | .error e => b.finish r (.result (.error (.missingBody e)))
      | .ok i =>
          let b := b.tell (Log.running r.command i.context)
          if b.wait = 0 then b.call r i
          else (b, { r with phase := .started i (now + b.wait) })
  | _ => (b, r)

def settle (now : Nat) (b : Bench) (r : Run) : Bench × Run :=
  match r.phase with
  | .started i deadline => if deadline ≤ now then b.call r i else (b, r)
  | _ => (b, r)

def each (f : Bench → Run → Bench × Run) (b : Bench) : List Run → Bench × List Run
  | [] => (b, [])
  | r :: rs =>
      let (b, r) := f b r
      let (b, rs) := each f b rs
      (b, r :: rs)

end Bench

namespace Runner

def start (service : Service) : Runner := ⟨⟨service, [], []⟩, [], 0⟩

def poll (r : Runner) : Runner :=
  let (bench, runs) := r.bench.each (Bench.start r.now) r.runs
  { r with bench, runs }

def moveTo (r : Runner) (now : Nat) : Runner :=
  let (bench, runs) := r.bench.each (Bench.settle now) r.runs
  { bench, runs, now }

def advance (r : Runner) (time : Nat) : Runner :=
  let r := r.poll
  r.moveTo (r.now + time)

def abort (r : Runner) (id : Nat) : Runner :=
  { r with
    runs := r.runs.map (fun run => if run.id = id then { run with phase := .aborted } else run) }

def run (r : Runner) (c : Command) : Runner × Run :=
  let key := c.range.first
  let new : Run := ⟨r.runs.length, key, c, .waiting, false⟩
  let r := match Table.lookup key r.bench.registry with
    | some older =>
        let text := "Superseding run for line " ++ toString (key + 1)
        { r.abort older with bench := r.bench.tell ⟨.debug, text⟩ }
    | none => r
  ({ r with
      runs := r.runs ++ [new]
      bench := { r.bench with registry := Table.insert key new.id r.bench.registry } }, new)

def isRunning (r : Runner) (key : Nat) : Bool := (Table.lookup key r.bench.registry).isSome

def running (r : Runner) : List Nat := Table.keys r.bench.registry

def cancel (r : Runner) (key : Nat) : Runner × Bool :=
  match Table.lookup key r.bench.registry with
  | some id =>
      let r := r.abort id
      ({ r with bench := { r.bench with registry := Table.erase key r.bench.registry } }, true)
  | none => (r, false)

def find? (r : Runner) (id : Nat) : Option Run := r.runs.find? (fun run => run.id == id)

def await (r : Runner) (id : Nat) : Runner :=
  let r := r.poll
  match (r.find? id).map Run.phase with
  | some (.started _ deadline) => r.moveTo deadline
  | _ => r

def outcome (r : Runner) (id : Nat) : Runner × Option Outcome :=
  match r.find? id with
  | none => (r, none)
  | some run =>
      if run.taken then (r, none)
      else
        let r := r.await id
        let r' := { r with
          runs := r.runs.map (fun run => if run.id = id then { run with taken := true } else run) }
        (r', (r.find? id).bind Run.outcome?)

inductive Event where
  | run (c : Command)
  | poll
  | advance (time : Nat)
  | cancel (key : Nat)
  | isRunning (key : Nat)
  | outcome (id : Nat)

inductive Answer where
  | created (id key : Nat)
  | quiet
  | cancelled (was : Bool)
  | isRunning (is : Bool)
  | outcome (o : Option Outcome)

def step (r : Runner) : Event → Runner × Answer
  | .run c =>
      let (r, run) := r.run c
      (r, .created run.id run.key)
  | .poll => (r.poll, .quiet)
  | .advance time => (r.advance time, .quiet)
  | .cancel key =>
      let (r, was) := r.cancel key
      (r, .cancelled was)
  | .isRunning key => (r, .isRunning (r.isRunning key))
  | .outcome id =>
      let (r, o) := r.outcome id
      (r, .outcome o)

end Runner

end QueueScript
