import QueueScript.Proofs.Script.Run
/-!
Line numbers, moved together. A scan that starts further down a document does the same as one from the
top, with all of its line numbers moved.
-/

namespace QueueScript

def Parameter.moved (f : Nat → Nat) (p : Parameter) : Parameter := { p with line := f p.line }

def LineRange.moved (f : Nat → Nat) (r : LineRange) : LineRange := ⟨f r.first, f r.last⟩

def Warning.moved (f : Nat → Nat) : Warning → Warning
  | .malformedBody line message => .malformedBody (f line) message
  | .invalidNumber key value line => .invalidNumber key value (f line)

def Command.moved (f : Nat → Nat) (c : Command) : Command :=
  { c with
    range := c.range.moved f
    bodyRange := c.bodyRange.map (LineRange.moved f)
    parameters := c.parameters.map (Parameter.moved f)
    warnings := c.warnings.map (Warning.moved f) }

theorem Warning.moved_moved (f g : Nat → Nat) (w : Warning) :
    (w.moved f).moved g = w.moved (g ∘ f) := by
  cases w <;> rfl

theorem Command.moved_moved (f g : Nat → Nat) (c : Command) :
    (c.moved f).moved g = c.moved (g ∘ f) := by
  have hw : Warning.moved g ∘ Warning.moved f = Warning.moved (g ∘ f) :=
    funext (Warning.moved_moved f g)
  simp only [Command.moved, List.map_map, Option.map_map, hw]
  rfl

theorem Command.moved_id (c : Command) : c.moved id = c := by
  have hw : Warning.moved id = id := by
    funext w
    cases w <;> rfl
  have hp : Parameter.moved id = id := rfl
  have hr : LineRange.moved id = id := rfl
  simp [Command.moved, hw, hp, hr]

namespace Script

def Draft.moved (f : Nat → Nat) (a : Draft) : Draft :=
  { a with
    bodyRange := a.bodyRange.map (LineRange.moved f)
    parameters := a.parameters.map (Parameter.moved f)
    warnings := a.warnings.map (Warning.moved f)
    first := f a.first }

def OpenBody.moved (f : Nat → Nat) (b : OpenBody) : OpenBody :=
  { b with first := f b.first, last := f b.last }

def State.moved (f : Nat → Nat) : State → State
  | .idle => .idle
  | .inBlock a => .inBlock (a.moved f)
  | .inBody a b => .inBody (a.moved f) (b.moved f)

variable {f : Nat → Nat}

theorem Draft.set_moved (a : Draft) (p : Parameter) :
    (a.set p).moved f = (a.moved f).set (p.moved f) := by
  obtain ⟨key, value, line⟩ := p
  cases key <;> simp only [Draft.set, Draft.setCount, Parameter.moved]
  case profile => simp [Draft.moved, Draft.record, Parameter.moved]
  case region => simp [Draft.moved, Draft.record, Parameter.moved]
  all_goals
    cases Text.count? value.toList with
    | none => simp [Draft.moved, Draft.warn, Warning.moved]
    | some n => simp [Draft.moved, Draft.record, Parameter.moved]

theorem Draft.resolve_moved (a : Draft) (b : OpenBody) :
    (a.resolve b).moved f = (a.moved f).resolve (b.moved f) := by
  have ht : (b.moved f).text = b.text := rfl
  simp only [Draft.resolve, ht]
  cases Json.parse b.text with
  | ok v => rfl
  | error e => simp [Draft.moved, Draft.warn, Warning.moved, OpenBody.moved, LineRange.moved]

theorem Draft.finish_moved (a : Draft) (last : Nat) :
    (a.finish last).moved f = (a.moved f).finish (f last) := rfl

theorem State.close_moved (s : State) (last : Nat) :
    (s.moved f).close (f last) = (s.close last).map (Command.moved f) := by
  cases s with
  | idle => rfl
  | inBlock a => rfl
  | inBody a b => simp only [State.close, State.moved, Option.map_some, Draft.finish_moved,
      Draft.resolve_moved]

theorem State.advanceBody_moved (a : Draft) (b : OpenBody) :
    (advanceBody a b).moved f = advanceBody (a.moved f) (b.moved f) := by
  have hc : (b.moved f).isClosed = b.isClosed := rfl
  simp only [State.advanceBody, hc]
  split
  · simp only [State.moved, Draft.resolve_moved]
  · rfl

theorem State.contentLine_moved (s : State) (i : Nat) (line : Line) :
    (s.contentLine i line).moved f = (s.moved f).contentLine (f i) line := by
  cases s with
  | idle => rfl
  | inBody a b => exact State.advanceBody_moved a (b.push i line)
  | inBlock a =>
      have hk : (a.moved f).kind = a.kind := rfl
      change (State.inBlockLine a i line).moved f = State.inBlockLine (a.moved f) (f i) line
      simp only [State.inBlockLine, hk]
      cases (parameter? (Text.trim line)).filter (fun p => p.1.appliesTo a.kind) with
      | some p => simp only [State.moved, Draft.set_moved, Parameter.moved]
      | none =>
          simp only
          split
          · exact State.advanceBody_moved a (.start i line)
          · rfl

theorem State.step_moved_of_ne (d : Defaults) (s : State) (i : Nat) {line : Line}
    (h : ∀ k t, classify line ≠ .header k t) :
    (s.moved f).step d (f i) line =
      ((s.step d i line).1.moved f, (s.step d i line).2.map (Command.moved f)) := by
  cases hc : classify line with
  | header k t => exact absurd hc (h k t)
  | silent => simp only [State.step_of_silent hc, Option.map_none]
  | content => simp only [State.step_of_content hc, State.contentLine_moved, Option.map_none]
  | delimiter =>
      cases s with
      | inBlock a => simp only [State.moved, State.step_delimiter_inBlock hc, Option.map_some,
          Draft.finish_moved]
      | idle => simp only [State.moved, State.step, hc, Option.map_none]
      | inBody a b => simp only [State.moved, State.step, hc, Option.map_none]

theorem State.step_moved (d : Defaults) (s : State) (i : Nat) (line : Line)
    (h : s = .idle ∨ f i - 1 = f (i - 1)) :
    (s.moved f).step d (f i) line =
      ((s.step d i line).1.moved f, (s.step d i line).2.map (Command.moved f)) := by
  by_cases hh : ∃ k t, classify line = .header k t
  · obtain ⟨k, t, hc⟩ := hh
    simp only [State.step_of_header hc]
    rcases h with rfl | h
    · rfl
    · rw [h, State.close_moved]
      rfl
  · exact State.step_moved_of_ne d s i (fun k t hc => hh ⟨k, t, hc⟩)

theorem State.scan_moved (d : Defaults) (n i : Nat) (ls : List Line) (s : State)
    (h : 0 < i ∨ s = .idle) :
    scan d (i + n) ls (s.moved (· + n)) = (scan d i ls s).map (Command.moved (· + n)) := by
  induction ls generalizing i s with
  | nil =>
      simp only [scan]
      rcases h with h | rfl
      · have hi : i + n - 1 = (i - 1) + n := by omega
        rw [hi, State.close_moved (f := (· + n)), Option.toList_map]
      · rfl
  | cons l ls ih =>
      have hstep := State.step_moved (f := (· + n)) d s i l (by
        rcases h with h | rfl
        · exact .inr (by omega)
        · exact .inl rfl)
      simp only [scan, hstep, List.map_append, Option.toList_map]
      rw [Nat.add_right_comm, ih (i + 1) _ (.inl (Nat.succ_pos i))]

theorem State.scan_idle_moved (d : Defaults) (n : Nat) (ls : List Line) :
    scan d n ls .idle = (scan d 0 ls .idle).map (Command.moved (· + n)) := by
  have h := State.scan_moved d n 0 ls .idle (.inr rfl)
  rwa [Nat.zero_add] at h

end Script

end QueueScript
