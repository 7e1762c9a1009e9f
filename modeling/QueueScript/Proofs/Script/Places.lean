import QueueScript.Proofs.Script.Extent

namespace QueueScript

structure Command.Placed (c : Command) : Prop where
  parameters : ∀ p ∈ c.parameters, c.range.first < p.line ∧ p.line ≤ c.range.last
  warnings : ∀ w ∈ c.warnings, c.range.first < w.line ∧ w.line ≤ c.range.last
  body : ∀ r, c.bodyRange = some r →
    c.range.first < r.first ∧ r.first ≤ r.last ∧ r.last ≤ c.range.last

end QueueScript

namespace QueueScript.Script

theorem pairwise_concat {α : Type} {R : α → α → Prop} {xs : List α} {x : α} (h : xs.Pairwise R)
    (hx : ∀ y ∈ xs, R y x) : (xs ++ [x]).Pairwise R := by
  rw [List.pairwise_append]
  refine ⟨h, List.pairwise_singleton R x, ?_⟩
  intro y hy z hz
  rw [List.mem_singleton.mp hz]
  exact hx y hy

namespace State

variable {d : Defaults} {P : Nat → State → Prop} {i : Nat} {s : State}

structure Invariant (d : Defaults) (P : Nat → State → Prop) : Prop where
  idle : ∀ i, P i .idle
  start : ∀ i k t, P (i + 1) (.inBlock (.start d k t i))
  content : ∀ i line s, P i s → P (i + 1) (s.contentLine i line)
  pass : ∀ i s, P i s → P (i + 1) s

theorem Invariant.step (h : Invariant d P) (line : Line) (hs : P i s) :
    P (i + 1) (s.step d i line).1 := by
  cases hc : classify line with
  | header k t =>
      rw [step_of_header hc]
      exact h.start i k t
  | silent =>
      rw [step_of_silent hc]
      exact h.pass i s hs
  | content =>
      rw [step_of_content hc]
      exact h.content i line s hs
  | delimiter =>
      cases s with
      | idle =>
          rw [step_idle (by simp [hc])]
          exact h.idle (i + 1)
      | inBlock a =>
          rw [step_delimiter_inBlock hc]
          exact h.idle (i + 1)
      | inBody a b =>
          rw [step_delimiter_of_bodyOpen hc rfl]
          exact h.pass i _ hs

theorem close_of_step {line : Line} {c : Command} (h : (s.step d i line).2 = some c) :
    ∃ last, i ≤ last + 1 ∧ s.close last = some c := by
  rcases step_cases d i line s with ⟨k, t, _, hstep⟩ | ⟨_, _, _, _, hstep⟩ | ⟨_, _, _, hnone⟩
  · rw [hstep] at h
    exact ⟨i - 1, by omega, h⟩
  · rw [hstep] at h
    exact ⟨i, by omega, h⟩
  · rw [hnone] at h
    cases h

theorem Invariant.exists_close (h : Invariant d P) {ls : List Line} {c : Command} (hs : P i s)
    (hc : c ∈ scan d i ls s) :
    ∃ j t last, P j t ∧ j ≤ last + 1 ∧ t.close last = some c := by
  induction ls generalizing i s with
  | nil =>
      rw [scan_nil, Option.mem_toList] at hc
      exact ⟨i, s, i - 1, hs, by omega, hc⟩
  | cons line ls ih =>
      rw [scan_cons, List.mem_append] at hc
      rcases hc with hc | hc
      · rw [Option.mem_toList] at hc
        obtain ⟨last, hlast, hclose⟩ := close_of_step hc
        exact ⟨i, s, last, hs, hlast, hclose⟩
      · exact ih (h.step line hs) hc

end State

structure Draft.Before (a : Draft) (i : Nat) : Prop where
  first : a.first < i
  parameters : ∀ p ∈ a.parameters, a.first < p.line ∧ p.line < i
  warnings : ∀ w ∈ a.warnings, a.first < w.line ∧ w.line < i
  body : ∀ r, a.bodyRange = some r → a.first < r.first ∧ r.first ≤ r.last ∧ r.last < i

namespace Draft.Before

variable {a : Draft} {i : Nat}

theorem start (d : Defaults) (k : Kind) (t : String) (i : Nat) :
    (Draft.start d k t i).Before (i + 1) := by
  constructor <;> simp [Draft.start]

theorem pass (h : a.Before i) : a.Before (i + 1) where
  first := Nat.lt_succ_of_lt h.first
  parameters p hp := (h.parameters p hp).imp_right Nat.lt_succ_of_lt
  warnings w hw := (h.warnings w hw).imp_right Nat.lt_succ_of_lt
  body r hr := by
    obtain ⟨hfirst, hle, hlast⟩ := h.body r hr
    exact ⟨hfirst, hle, Nat.lt_succ_of_lt hlast⟩

theorem record {p : Parameter} (h : a.Before i) (hp : a.first < p.line ∧ p.line < i) :
    (a.record p).Before i where
  first := h.first
  parameters q hq := by
    rcases List.mem_append.mp hq with hq | hq
    · exact h.parameters q hq
    · rwa [List.mem_singleton.mp hq]
  warnings := h.warnings
  body := h.body

theorem warn {w : Warning} (h : a.Before i) (hw : a.first < w.line ∧ w.line < i) :
    (a.warn w).Before i where
  first := h.first
  parameters := h.parameters
  warnings x hx := by
    rcases List.mem_append.mp hx with hx | hx
    · exact h.warnings x hx
    · rwa [List.mem_singleton.mp hx]
  body := h.body

theorem set {key : ParameterKey} {value : String} (h : a.Before i) :
    (a.set ⟨key, value, i⟩).Before (i + 1) := by
  have hi : a.first < i ∧ i < i + 1 := ⟨h.first, Nat.lt_succ_self i⟩
  have hcount {store : UInt32 → Draft} (hstore : ∀ n, (store n).Before (i + 1))
      (hfirst : ∀ n, (store n).first = a.first) :
      (a.setCount ⟨key, value, i⟩ store).Before (i + 1) := by
    rw [Draft.setCount]
    split
    · rename_i n _
      exact (hstore n).record ((hfirst n).symm ▸ hi)
    · exact h.pass.warn hi
  obtain ⟨hf, hp, hw, hb⟩ := h.pass
  cases key with
  | profile => exact record ⟨hf, hp, hw, hb⟩ hi
  | region => exact record ⟨hf, hp, hw, hb⟩ hi
  | maxMessages => exact hcount (fun _ => ⟨hf, hp, hw, hb⟩) (fun _ => rfl)
  | visibilityTimeout => exact hcount (fun _ => ⟨hf, hp, hw, hb⟩) (fun _ => rfl)
  | waitTime => exact hcount (fun _ => ⟨hf, hp, hw, hb⟩) (fun _ => rfl)

theorem resolve {b : OpenBody} (h : a.Before i)
    (hb : a.first < b.first ∧ b.first ≤ b.last ∧ b.last < i) : (a.resolve b).Before i := by
  have hrange : ∀ r, some (⟨b.first, b.last⟩ : LineRange) = some r →
      a.first < r.first ∧ r.first ≤ r.last ∧ r.last < i := by
    rintro r ⟨⟩
    exact hb
  rw [Draft.resolve]
  dsimp only
  split
  · exact ⟨h.first, h.parameters, h.warnings, hrange⟩
  · exact warn ⟨h.first, h.parameters, h.warnings, hrange⟩
      ⟨hb.1, Nat.lt_of_le_of_lt hb.2.1 hb.2.2⟩

theorem placed_finish {last : Nat} (h : a.Before i) (hi : i ≤ last + 1) :
    (a.finish last).Placed where
  parameters p hp := by
    obtain ⟨hfirst, hlast⟩ := h.parameters p hp
    exact ⟨hfirst, Nat.le_of_lt_succ (Nat.lt_of_lt_of_le hlast hi)⟩
  warnings w hw := by
    obtain ⟨hfirst, hlast⟩ := h.warnings w hw
    exact ⟨hfirst, Nat.le_of_lt_succ (Nat.lt_of_lt_of_le hlast hi)⟩
  body r hr := by
    obtain ⟨hfirst, hle, hlast⟩ := h.body r hr
    exact ⟨hfirst, hle, Nat.le_of_lt_succ (Nat.lt_of_lt_of_le hlast hi)⟩

end Draft.Before

def State.Before (i : Nat) : State → Prop
  | .idle => True
  | .inBlock a => a.Before i
  | .inBody a b => a.Before i ∧ a.first < b.first ∧ b.first ≤ b.last ∧ b.last < i

theorem State.before_advanceBody {a : Draft} {b : OpenBody} {i : Nat} (h : a.Before i)
    (hb : a.first < b.first ∧ b.first ≤ b.last ∧ b.last < i) : (advanceBody a b).Before i := by
  rw [advanceBody]
  split
  · exact h.resolve hb
  · exact ⟨h, hb⟩

theorem State.before_contentLine {i : Nat} {s : State} (line : Line) (h : s.Before i) :
    (s.contentLine i line).Before (i + 1) := by
  cases s with
  | idle => trivial
  | inBlock a =>
      simp only [contentLine, inBlockLine]
      split
      · exact Draft.Before.set h
      · split
        · exact before_advanceBody (Draft.Before.pass h)
            ⟨h.first, Nat.le_refl i, Nat.lt_succ_self i⟩
        · exact Draft.Before.pass h
  | inBody a b =>
      obtain ⟨ha, hfirst, hle, hlast⟩ := h
      refine before_advanceBody ha.pass ⟨hfirst, ?_, Nat.lt_succ_self i⟩
      exact Nat.le_of_lt (Nat.lt_of_le_of_lt hle hlast)

theorem State.before_invariant (d : Defaults) : Invariant d Before where
  idle _ := trivial
  start i k t := Draft.Before.start d k t i
  content _ line _ h := before_contentLine line h
  pass i s h := by
    cases s with
    | idle => trivial
    | inBlock a => exact Draft.Before.pass h
    | inBody a b => exact ⟨h.1.pass, h.2.1, h.2.2.1, Nat.lt_succ_of_lt h.2.2.2⟩

theorem placed_of_mem_parse {d : Defaults} {text : String} {c : Command} (h : c ∈ parse d text) :
    c.Placed := by
  have hidle : State.Before 0 .idle := trivial
  obtain ⟨i, s, last, hs, hi, hclose⟩ := (State.before_invariant d).exists_close hidle h
  cases s with
  | idle => cases hclose
  | inBlock a =>
      obtain rfl := Option.some.inj hclose
      exact Draft.Before.placed_finish hs hi
  | inBody a b =>
      obtain rfl := Option.some.inj hclose
      exact (hs.1.resolve hs.2).placed_finish hi

theorem range_of_mem_parse {d : Defaults} {text : String} {c : Command} (h : c ∈ parse d text) :
    c.range.first ≤ c.range.last ∧ c.range.last < (Text.splitLines text.toList).length := by
  obtain ⟨_, _, _, m, _, _, hm, hlt, _, _⟩ := exists_block_of_mem h
  exact ⟨by omega, hlt⟩

theorem pairwise_parse (d : Defaults) (text : String) :
    (parse d text).Pairwise (fun a b => a.range.last < b.range.first) :=
  State.pairwise_scan d 0 _ (by simp [State.opened])

end QueueScript.Script
