import Mathlib.Data.List.Forall2
import QueueScript.Proofs.Script.Run

namespace QueueScript

def ParameterKey.isIn (key : ParameterKey) (ps : List Parameter) : Bool :=
  ps.any (fun p => p.key == key)

def Command.under (d : Script.Defaults) (c : Command) : Command :=
  { c with
    profile := if ParameterKey.profile.isIn c.parameters then c.profile else d.profile
    region := if ParameterKey.region.isIn c.parameters then c.region else d.region }

namespace Script

def Draft.under (d : Defaults) (a : Draft) : Draft :=
  { a with
    profile := if ParameterKey.profile.isIn a.parameters then a.profile else d.profile
    region := if ParameterKey.region.isIn a.parameters then a.region else d.region }

def State.under (d : Defaults) : State → State
  | .idle => .idle
  | .inBlock a => .inBlock (a.under d)
  | .inBody a b => .inBody (a.under d) b

variable {d d' : Defaults}

theorem Draft.set_under (a : Draft) (p : Parameter) : (a.set p).under d = (a.under d).set p := by
  obtain ⟨key, value, line⟩ := p
  cases key <;> simp only [Draft.set, Draft.setCount]
  case profile => simp [Draft.under, ParameterKey.isIn, Draft.record]
  case region => simp [Draft.under, ParameterKey.isIn, Draft.record]
  all_goals
    cases Text.count? value.toList with
    | none => rfl
    | some n => simp [Draft.under, ParameterKey.isIn, Draft.record]

theorem Draft.resolve_under (a : Draft) (b : OpenBody) :
    (a.resolve b).under d = (a.under d).resolve b := by
  simp only [Draft.resolve]
  cases Json.parse b.text <;> rfl

theorem State.close_under (s : State) (last : Nat) :
    (s.under d).close last = (s.close last).map (Command.under d) := by
  cases s with
  | idle => rfl
  | inBlock a => rfl
  | inBody a b =>
      simp only [State.under, State.close, ← Draft.resolve_under]
      rfl

theorem State.advanceBody_under (a : Draft) (b : OpenBody) :
    (advanceBody a b).under d = advanceBody (a.under d) b := by
  simp only [State.advanceBody]
  split
  · simp only [State.under, Draft.resolve_under]
  · rfl

theorem State.contentLine_under (s : State) (i : Nat) (line : Line) :
    (s.contentLine i line).under d = (s.under d).contentLine i line := by
  cases s with
  | idle => rfl
  | inBody a b => exact State.advanceBody_under a (b.push i line)
  | inBlock a =>
      change (inBlockLine a i line).under d = inBlockLine (a.under d) i line
      have hkind : (a.under d).kind = a.kind := rfl
      simp only [State.inBlockLine, hkind]
      cases (parameter? (Text.trim line)).filter (fun p => p.1.appliesTo a.kind) with
      | some p => simp only [State.under, Draft.set_under]
      | none =>
          simp only
          split
          · exact State.advanceBody_under a (.start i line)
          · rfl

theorem State.step_under (d' : Defaults) (s : State) (i : Nat) (line : Line) :
    (s.under d).step d i line =
      ((s.step d' i line).1.under d, (s.step d' i line).2.map (Command.under d)) := by
  cases hc : classify line with
  | silent => simp only [State.step_of_silent hc, Option.map_none]
  | content => simp only [State.step_of_content hc, State.contentLine_under, Option.map_none]
  | header k t =>
      simp only [State.step_of_header hc, State.close_under]
      rfl
  | delimiter =>
      cases s with
      | idle => simp only [State.under, State.step, hc, Option.map_none]
      | inBody a b => simp only [State.under, State.step, hc, Option.map_none]
      | inBlock a =>
          simp only [State.under, State.step_delimiter_inBlock hc]
          rfl

theorem State.scan_under (i : Nat) (ls : List Line) (s : State) :
    scan d i ls (s.under d) = (scan d' i ls s).map (Command.under d) := by
  induction ls generalizing i s with
  | nil => rw [scan_nil, scan_nil, State.close_under, Option.toList_map]
  | cons l ls ih =>
      rw [scan_cons, scan_cons, State.step_under d', List.map_append, Option.toList_map, ih]

theorem parse_under (d d' : Defaults) (text : String) :
    parse d text = (parse d' text).map (Command.under d) :=
  State.scan_under 0 _ .idle

theorem parse_differs_by_defaults (d₁ d₂ : Defaults) (text : String) :
    List.Forall₂
      (fun a b =>
        a = { b with profile := a.profile, region := a.region } ∧
          (if ParameterKey.profile.isIn a.parameters then a.profile = b.profile
            else a.profile = d₁.profile ∧ b.profile = d₂.profile) ∧
          if ParameterKey.region.isIn a.parameters then a.region = b.region
            else a.region = d₁.region ∧ b.region = d₂.region)
      (parse d₁ text) (parse d₂ text) := by
  rw [parse_under d₁ d₁, parse_under d₂ d₁, List.forall₂_map_left_iff, List.forall₂_map_right_iff,
    List.forall₂_same]
  intro c _
  refine ⟨rfl, ?_, ?_⟩
  · cases h : ParameterKey.profile.isIn c.parameters <;> simp [Command.under, h]
  · cases h : ParameterKey.region.isIn c.parameters <;> simp [Command.under, h]

end Script

end QueueScript
