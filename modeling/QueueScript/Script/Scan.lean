import QueueScript.Script.Draft
/-!
Reading a document line by line into commands. No document is refused: a line that means nothing
where it stands is passed over.
-/

namespace QueueScript.Script

inductive State where
  | idle
  | inBlock (d : Draft)
  | inBody (d : Draft) (b : OpenBody)

namespace State

def close (last : Nat) : State → Option Command
  | .idle => none
  | .inBlock d => some (d.finish last)
  | .inBody d b => some ((d.resolve b).finish last)

def advanceBody (d : Draft) (b : OpenBody) : State :=
  if b.isClosed then .inBlock (d.resolve b) else .inBody d b

def inBlockLine (d : Draft) (index : Nat) (line : Line) : State :=
  let trimmed := Text.trim line
  let parameter := (parameter? trimmed).filter (fun p => p.1.appliesTo d.kind)
  match parameter with
  | some (key, value) => .inBlock (d.set ⟨key, value, index⟩)
  | none =>
      if d.kind = .send ∧ trimmed.head? = some '{' then advanceBody d (.start index line)
      else .inBlock d

def contentLine (index : Nat) (line : Line) : State → State
  | .idle => .idle
  | .inBlock d => inBlockLine d index line
  | .inBody d b => advanceBody d (b.push index line)

/-- One line: the state after it, and the command that it ends. A delimiter ends a block only
outside a body; a header ends any block on the line before. -/
def step (defaults : Defaults) (index : Nat) (line : Line) (s : State) : State × Option Command :=
  match classify line, s with
  | .silent, s => (s, none)
  | .delimiter, .inBlock d => (.idle, some (d.finish index))
  | .delimiter, s => (s, none)
  | .header kind target, s => (.inBlock (.start defaults kind target index), s.close (index - 1))
  | .content, s => (s.contentLine index line, none)

def scan (defaults : Defaults) : Nat → List Line → State → List Command
  | index, [], s => (s.close (index - 1)).toList
  | index, line :: lines, s =>
      let (s', command) := s.step defaults index line
      command.toList ++ scan defaults (index + 1) lines s'

end State

def parse (defaults : Defaults) (text : String) : List Command :=
  State.scan defaults 0 (Text.splitLines text.toList) .idle

end QueueScript.Script
