import QueueScript.Proofs.Script.Places
/-!
What can be said of a command from the lines up to its last one: a fact about the state that is kept
line by line holds where the block ends, and a block ends at a delimiter or at an edge.
-/

namespace QueueScript.Script

open Text (trim)
open State (after scan)

def isNote (l : Line) : Bool := trim l == [] || (trim l).head? == some '#'

theorem isNote_iff {l : Line} :
    isNote l = true ↔ classify l = .silent ∨ classify l = .delimiter := by
  simp only [isNote, classify]
  split
  · rename_i h
    simp [h]
  · rename_i r h
    by_cases hr : r = ['#', '#'] <;> simp [h, hr]
  · rename_i c r hc h
    have hne : c ≠ '#' := fun e => hc (by rw [e])
    cases header? (c :: r) <;> simp [h, hne]

theorem isNote_of_content {l : Line} (h : classify l = .content) : isNote l = false := by
  rw [Bool.eq_false_iff, Ne, isNote_iff]
  simp [h]

theorem head?_trim_of_isNote {l : Line} (h : isNote l = true) : (trim l).head? ≠ some '{' := by
  simp only [isNote, Bool.or_eq_true, beq_iff_eq] at h
  rcases h with h | h
  · simp [h]
  · simp [h]

def edgeAfter (lines : List Line) (j : Nat) : Bool := lines[j + 1]?.all isHeader

variable {d : Defaults} {lines : List Line} {c : Command} {j : Nat}

/-- What holds of the state before the line `j`, for any `j`, whatever the lines of the document. -/
structure Reading (d : Defaults) (lines : List Line) (P : Nat → State → Prop) : Prop where
  idle : ∀ j, P j .idle
  start : ∀ j k t, P (j + 1) (.inBlock (.start d k t j))
  content : ∀ j l s, lines[j]? = some l → classify l = .content → P j s →
    P (j + 1) (s.contentLine j l)
  pass : ∀ j l s, lines[j]? = some l → isNote l = true → P j s → P (j + 1) s

variable {P : Nat → State → Prop}

theorem State.Invariant.reading (h : State.Invariant d P) (lines : List Line) :
    Reading d lines P where
  idle := h.idle
  start := h.start
  content j l s _ _ := h.content j l s
  pass j _ s _ _ := h.pass j s

theorem Reading.and {Q : Nat → State → Prop} (hP : Reading d lines P) (hQ : Reading d lines Q) :
    Reading d lines (fun j s => P j s ∧ Q j s) where
  idle j := ⟨hP.idle j, hQ.idle j⟩
  start j k t := ⟨hP.start j k t, hQ.start j k t⟩
  content j l s hl hc h := ⟨hP.content j l s hl hc h.1, hQ.content j l s hl hc h.2⟩
  pass j l s hl hn h := ⟨hP.pass j l s hl hn h.1, hQ.pass j l s hl hn h.2⟩

theorem Reading.step (h : Reading d lines P) {l : Line} {s : State} (hl : lines[j]? = some l)
    (hs : P j s) : P (j + 1) (s.step d j l).1 := by
  cases hc : classify l with
  | header k t =>
      rw [State.step_of_header hc]
      exact h.start j k t
  | silent =>
      rw [State.step_of_silent hc]
      exact h.pass j l s hl (isNote_iff.mpr (.inl hc)) hs
  | content =>
      rw [State.step_of_content hc]
      exact h.content j l s hl hc hs
  | delimiter =>
      cases s with
      | idle =>
          rw [State.step_idle (by simp [hc])]
          exact h.idle (j + 1)
      | inBlock a =>
          rw [State.step_delimiter_inBlock hc]
          exact h.idle (j + 1)
      | inBody a b =>
          rw [State.step_delimiter_of_bodyOpen hc rfl]
          exact h.pass j l _ hl (isNote_iff.mpr (.inr hc)) hs

theorem Reading.after (h : Reading d lines P) (hj : j ≤ lines.length) :
    P j (after d 0 (lines.take j) .idle) := by
  induction j with
  | zero => exact h.idle 0
  | succ j ih =>
      have hl : lines[j]? = some lines[j] := List.getElem?_eq_getElem hj
      rw [after_take_succ (drop_eq_cons hl)]
      exact h.step hl (ih (Nat.le_of_lt hj))

theorem exists_delimiter_of_closesAt (h : closesAt d lines j = true) :
    ∃ l, lines[j]? = some l ∧ classify l = .delimiter ∧
      (after d 0 (lines.take j) .idle).bodyOpen = false := by
  cases hl : lines[j]? with
  | none => simp [closesAt, hl] at h
  | some l => exact ⟨l, rfl, (closesAt_eq (drop_eq_cons hl)).mp h⟩

theorem after_of_closesAt (h : closesAt d lines j = true) :
    after d 0 (lines.take (j + 1)) .idle = .idle := by
  obtain ⟨l, hl, hdelimiter, hbody⟩ := exists_delimiter_of_closesAt h
  rw [after_take_succ (drop_eq_cons hl)]
  cases hs : after d 0 (lines.take j) .idle with
  | idle => rw [State.step_idle (by simp [hdelimiter])]
  | inBlock a => rw [State.step_delimiter_inBlock hdelimiter]
  | inBody a b => simp [hs, State.bodyOpen] at hbody

inductive Ends (d : Defaults) (lines : List Line) (c : Command) : State → Prop
  | delimiter : closesAt d lines c.range.last = true →
      (after d 0 (lines.take c.range.last) .idle).close c.range.last = some c →
      Ends d lines c (after d 0 (lines.take c.range.last) .idle)
  | edge : closesAt d lines c.range.last = false → edgeAfter lines c.range.last = true →
      (after d 0 (lines.take (c.range.last + 1)) .idle).close c.range.last = some c →
      Ends d lines c (after d 0 (lines.take (c.range.last + 1)) .idle)

theorem Ends.close {s : State} (h : Ends d lines c s) : s.close c.range.last = some c := by
  cases h with
  | delimiter _ hc => exact hc
  | edge _ _ hc => exact hc

theorem Ends.edge_of_bodyOpen {s : State} (h : Ends d lines c s) (hs : s.bodyOpen = true) :
    closesAt d lines c.range.last = false ∧ edgeAfter lines c.range.last = true := by
  cases h with
  | delimiter hd _ =>
      obtain ⟨_, _, _, hbody⟩ := exists_delimiter_of_closesAt hd
      rw [hs] at hbody
      cases hbody
  | edge hn he _ => exact ⟨hn, he⟩

theorem State.last_of_close {s : State} {last : Nat} (h : s.close last = some c) :
    s ≠ .idle ∧ c.range.last = last := by
  have hs : s ≠ .idle := by
    rintro rfl
    cases h
  obtain ⟨a, ha, _, hlast⟩ := State.close_of_ne_idle hs last
  obtain rfl : c = a := Option.some.inj (h.symm.trans ha)
  exact ⟨hs, hlast⟩

theorem ends_of_close {ls ms : List Line} (hm : ms.head?.all isHeader = true)
    (h : (after d 0 ls .idle).close (ls.length - 1) = some c) :
    Ends d (ls ++ ms) c (after d 0 ls .idle) := by
  obtain ⟨hs, hlast⟩ := State.last_of_close h
  have hlength : c.range.last + 1 = ls.length := by
    have hne : ls ≠ [] := by
      rintro rfl
      exact hs rfl
    have := List.length_pos_iff.mpr hne
    omega
  have htake : (ls ++ ms).take (c.range.last + 1) = ls := by rw [hlength, List.take_left]
  have hafter : after d 0 ls .idle = after d 0 ((ls ++ ms).take (c.range.last + 1)) .idle := by
    rw [htake]
  rw [hafter] at hs h ⊢
  refine .edge ?_ ?_ (hlast ▸ h)
  · rw [Bool.eq_false_iff]
    intro hclose
    exact hs (after_of_closesAt hclose)
  · rw [edgeAfter, hlength, List.getElem?_append_right (Nat.le_refl _), Nat.sub_self,
      ← List.head?_eq_getElem?]
    exact hm

theorem exists_ends_append {ls ms : List Line}
    (h : c ∈ scan d ls.length ms (after d 0 ls .idle)) : ∃ s, Ends d (ls ++ ms) c s := by
  induction ms generalizing ls with
  | nil =>
      rw [State.scan_nil, Option.mem_toList] at h
      exact ⟨_, ends_of_close rfl h⟩
  | cons l ms ih =>
      rw [State.scan_cons, List.mem_append, Option.mem_toList] at h
      have hl : (ls ++ l :: ms)[ls.length]? = some l := by simp
      have htake : (ls ++ l :: ms).take ls.length = ls := List.take_left
      rcases h with h | h
      · rcases State.step_cases d ls.length l (after d 0 ls .idle) with
          ⟨k, t, hk, hstep⟩ | ⟨_, hd, _, hb, hstep⟩ | ⟨_, _, _, hnone⟩
        · rw [hstep] at h
          refine ⟨_, ends_of_close ?_ h⟩
          simpa using isHeader_iff.mpr ⟨k, t, hk⟩
        · rw [hstep] at h
          obtain ⟨_, hlast⟩ := State.last_of_close h
          refine ⟨_, .delimiter ?_ ?_⟩
          · rw [hlast, closesAt_eq (drop_eq_cons hl), htake]
            exact ⟨hd, hb⟩
          · rw [hlast, htake]
            exact h
        · rw [hnone] at h
          cases h
      · have hafter : after d 0 (ls ++ [l]) .idle = ((after d 0 ls .idle).step d ls.length l).1 := by
          rw [State.after_concat, Nat.zero_add]
        rw [← hafter] at h
        have hends : ∃ s, Ends d ((ls ++ [l]) ++ ms) c s :=
          ih (by rw [List.length_append]; exact h)
        rwa [List.append_assoc, List.singleton_append] at hends

theorem exists_ends (h : c ∈ scan d 0 lines .idle) : ∃ s, Ends d lines c s := by
  rw [← List.nil_append lines]
  exact exists_ends_append h

theorem Reading.exists_ends (h : Reading d lines P) (hc : c ∈ scan d 0 lines .idle) :
    ∃ s, Ends d lines c s ∧ P (c.range.last + 1) s := by
  obtain ⟨_, _, _, _, _, _, _, hlast, _, _⟩ := exists_block_of_mem hc
  obtain ⟨s, hs⟩ := Script.exists_ends hc
  refine ⟨s, hs, ?_⟩
  cases hs with
  | delimiter hd _ =>
      obtain ⟨l, hl, hdelimiter, _⟩ := exists_delimiter_of_closesAt hd
      exact h.pass _ l _ hl (isNote_iff.mpr (.inr hdelimiter)) (h.after (Nat.le_of_lt hlast))
  | edge _ _ _ => exact h.after hlast

end QueueScript.Script
