import QueueScript.Proofs.Script.Places

namespace QueueScript

theorem LineRange.contains_of_lt_first {r : LineRange} {line : Nat} (h : line < r.first) :
    r.contains line = false := by
  simp only [contains, Bool.and_eq_false_imp, decide_eq_true_eq]
  omega

theorem LineRange.contains_of_last_lt {r : LineRange} {line : Nat} (h : r.last < line) :
    r.contains line = false := by
  simp only [contains, Bool.and_eq_false_imp, decide_eq_true_eq, decide_eq_false_iff_not]
  omega

namespace Script

structure Spaced (ps : List Parameter) (body : Option Json) (range : Option LineRange) : Prop where
  rising : ps.Pairwise (fun p q => p.line < q.line)
  apart : ∀ r, range = some r → ∀ p ∈ ps, r.contains p.line = false
  ranged : body.isSome = true → range.isSome = true

theorem Spaced.record {ps : List Parameter} {body : Option Json} {range : Option LineRange}
    {p : Parameter} (h : Spaced ps body range) (hps : ∀ q ∈ ps, q.line < p.line)
    (hrange : ∀ r, range = some r → r.last < p.line) : Spaced (ps ++ [p]) body range := by
  refine ⟨pairwise_concat h.rising hps, ?_, h.ranged⟩
  intro r hr q hq
  rcases List.mem_append.mp hq with hq | hq
  · exact h.apart r hr q hq
  · rw [List.mem_singleton.mp hq]
    exact LineRange.contains_of_last_lt (hrange r hr)

namespace Draft

def Spaced (a : Draft) : Prop := Script.Spaced a.parameters a.body a.bodyRange

variable {a : Draft} {i : Nat}

theorem spaced_set (h : a.Spaced) (hb : a.Before i) (key : ParameterKey) (value : String) :
    (a.set ⟨key, value, i⟩).Spaced := by
  have hrecord := Script.Spaced.record (p := ⟨key, value, i⟩) h (fun q hq => (hb.parameters q hq).2)
    (fun r hr => (hb.body r hr).2.2)
  cases key <;> simp only [set, setCount]
  case profile => exact hrecord
  case region => exact hrecord
  all_goals
    cases Text.count? value.toList with
    | none => exact h
    | some n => exact hrecord

theorem spaced_resolve {b : OpenBody} (h : a.Spaced) (hb : ∀ p ∈ a.parameters, p.line < b.first) :
    (a.resolve b).Spaced := by
  have hapart (body : Option Json) :
      Script.Spaced a.parameters body (some ⟨b.first, b.last⟩) := by
    refine ⟨h.rising, ?_, fun _ => rfl⟩
    rintro r ⟨⟩ p hp
    exact LineRange.contains_of_lt_first (hb p hp)
  simp only [resolve]
  cases Json.parse b.text with
  | ok v => exact hapart (some v)
  | error e => exact hapart none

end Draft

namespace State

def Spaced : State → Prop
  | .idle => True
  | .inBlock a => a.Spaced
  | .inBody a b => a.Spaced ∧ ∀ p ∈ a.parameters, p.line < b.first

theorem spaced_advanceBody {a : Draft} {b : OpenBody} (h : a.Spaced)
    (hb : ∀ p ∈ a.parameters, p.line < b.first) : (advanceBody a b).Spaced := by
  rw [advanceBody]
  split
  · exact Draft.spaced_resolve h hb
  · exact ⟨h, hb⟩

theorem spaced_contentLine {i : Nat} {s : State} (line : Line) (hb : s.Before i) (h : s.Spaced) :
    (s.contentLine i line).Spaced := by
  cases s with
  | idle => trivial
  | inBlock a =>
      simp only [contentLine, inBlockLine]
      split
      · exact Draft.spaced_set h hb _ _
      · split
        · exact spaced_advanceBody h (fun p hp => (Draft.Before.parameters hb p hp).2)
        · exact h
  | inBody a b => exact spaced_advanceBody h.1 h.2

theorem spaced_invariant (d : Defaults) : Invariant d (fun i s => s.Before i ∧ s.Spaced) where
  idle i := ⟨(before_invariant d).idle i, trivial⟩
  start i k t := by
    refine ⟨(before_invariant d).start i k t, .nil, ?_, ?_⟩ <;> simp [Draft.start]
  content i line s h :=
    ⟨(before_invariant d).content i line s h.1, spaced_contentLine line h.1 h.2⟩
  pass i s h := ⟨(before_invariant d).pass i s h.1, h.2⟩

end State

theorem spaced_of_mem_parse {d : Defaults} {text : String} {c : Command} (h : c ∈ parse d text) :
    Spaced c.parameters c.body c.bodyRange := by
  have hidle : State.Before 0 .idle ∧ State.Spaced .idle := ⟨trivial, trivial⟩
  obtain ⟨_, s, last, ⟨_, hs⟩, _, hclose⟩ := (State.spaced_invariant d).exists_close hidle h
  cases s with
  | idle => cases hclose
  | inBlock a =>
      obtain rfl := Option.some.inj hclose
      exact hs
  | inBody a b =>
      obtain rfl := Option.some.inj hclose
      exact Draft.spaced_resolve hs.1 hs.2

end Script

end QueueScript
