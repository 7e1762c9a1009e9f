import QueueScript.Proofs.Script.Run

namespace QueueScript

def Command.headline (c : Command) : Nat × Kind × String := (c.range.first, c.kind, c.target)

end QueueScript

namespace QueueScript.Script

open Text (trim)

def headers (i : Nat) (lines : List Line) : List (Nat × Kind × String) :=
  (lines.zipIdx i).filterMap (fun p => (header? (trim p.1)).map (fun h => (p.2, h)))

theorem headers_cons_of_header {i : Nat} {l : Line} {ls : List Line} {k : Kind} {t : String}
    (h : classify l = .header k t) : headers i (l :: ls) = (i, k, t) :: headers (i + 1) ls := by
  simp [headers, List.zipIdx_cons, classify_eq_header_iff.mp h]

theorem headers_cons_of_ne {i : Nat} {l : Line} {ls : List Line}
    (h : ∀ k t, classify l ≠ .header k t) : headers i (l :: ls) = headers (i + 1) ls := by
  have hn : header? (trim l) = none := by
    cases hh : header? (trim l) with
    | none => rfl
    | some p => exact absurd (classify_eq_header_iff.mpr hh) (h p.1 p.2)
  simp [headers, List.zipIdx_cons, hn]

theorem le_of_mem_headers {i : Nat} {ls : List Line} {p : Nat × Kind × String}
    (h : p ∈ headers i ls) : i ≤ p.1 := by
  simp only [headers, List.mem_filterMap, Option.map_eq_some_iff] at h
  obtain ⟨q, hq, _, _, rfl⟩ := h
  exact List.le_snd_of_mem_zipIdx hq

namespace State

def opened : State → Option (Nat × Kind × String)
  | .idle => none
  | .inBlock a => some (a.first, a.kind, a.target)
  | .inBody a _ => some (a.first, a.kind, a.target)

theorem opened_advanceBody (a : Draft) (b : OpenBody) :
    (advanceBody a b).opened = some (a.first, a.kind, a.target) := by
  simp only [advanceBody, Draft.resolve]
  split
  · cases Json.parse b.text <;> rfl
  · rfl

theorem opened_set (a : Draft) (p : Parameter) :
    (inBlock (a.set p)).opened = (inBlock a).opened := by
  obtain ⟨key, value, line⟩ := p
  cases key <;> simp only [Draft.set, Draft.setCount]
  case profile => rfl
  case region => rfl
  all_goals cases Text.count? value.toList <;> rfl

theorem opened_contentLine (s : State) (i : Nat) (line : Line) :
    (s.contentLine i line).opened = s.opened := by
  cases s with
  | idle => rfl
  | inBody a b => exact opened_advanceBody a _
  | inBlock a =>
      simp only [contentLine, inBlockLine]
      split
      · exact opened_set a _
      · split
        · exact opened_advanceBody a _
        · rfl

theorem close_of_ne_idle {s : State} (h : s ≠ .idle) (last : Nat) :
    ∃ c, s.close last = some c ∧ some c.headline = s.opened ∧ c.range.last = last := by
  cases s with
  | idle => exact absurd rfl h
  | inBlock a => exact ⟨_, rfl, rfl, rfl⟩
  | inBody a b =>
      refine ⟨_, rfl, ?_, rfl⟩
      simp only [Draft.resolve]
      cases Json.parse b.text <;> rfl

variable {d : Defaults} {i : Nat} {ls : List Line} {s : State}

theorem step_cases (d : Defaults) (i : Nat) (line : Line) (s : State) :
    (∃ k t, classify line = .header k t ∧
      s.step d i line = (.inBlock (.start d k t i), s.close (i - 1))) ∨
    ((∀ k t, classify line ≠ .header k t) ∧ classify line = .delimiter ∧ s ≠ .idle ∧
      s.bodyOpen = false ∧ s.step d i line = (.idle, s.close i)) ∨
    ((∀ k t, classify line ≠ .header k t) ∧
      (classify line = .delimiter → s ≠ .idle → s.bodyOpen = true) ∧
      (s.step d i line).1.opened = s.opened ∧ (s.step d i line).2 = none) := by
  cases hc : classify line with
  | header k t => exact .inl ⟨k, t, rfl, step_of_header hc⟩
  | silent => exact .inr (.inr (by simp [step_of_silent hc]))
  | content => exact .inr (.inr (by simp [step_of_content hc, opened_contentLine]))
  | delimiter =>
      cases s with
      | idle => exact .inr (.inr (by simp [step_idle (l := line) (by simp [hc])]))
      | inBlock a => exact .inr (.inl (by simp [step_delimiter_inBlock hc, bodyOpen, close]))
      | inBody a b =>
          have hstep := step_delimiter_of_bodyOpen (d := d) (i := i) (s := inBody a b) hc rfl
          exact .inr (.inr (by simp [hstep, bodyOpen]))

theorem opened_eq_none {s : State} : s.opened = none ↔ s = .idle := by
  cases s <;> simp [opened]

theorem map_headline_scan (d : Defaults) (i : Nat) (ls : List Line) (s : State) :
    (scan d i ls s).map Command.headline = s.opened.toList ++ headers i ls := by
  have hclose (s : State) (last : Nat) :
      (s.close last).toList.map Command.headline = s.opened.toList := by
    by_cases hs : s = .idle
    · rw [hs]; rfl
    · obtain ⟨c, hc, ho, _⟩ := close_of_ne_idle hs last
      simp [hc, ← ho]
  induction ls generalizing i s with
  | nil => simpa [scan, headers] using hclose s (i - 1)
  | cons l ls ih =>
      rcases step_cases d i l s with ⟨k, t, hk, hstep⟩ | ⟨hh, _, _, _, hstep⟩ | ⟨hh, _, ho, hn⟩
      · simp only [scan, hstep, List.map_append, hclose, ih, headers_cons_of_header hk]
        rfl
      · simp only [scan, hstep, List.map_append, hclose, ih, headers_cons_of_ne hh]
        rfl
      · simp only [scan, hn, Option.toList_none, List.nil_append, ih, ho, headers_cons_of_ne hh]

theorem first_of_mem_scan {c : Command} (h : c ∈ scan d i ls s) :
    some c.headline = s.opened ∨ i ≤ c.range.first := by
  have hm : c.headline ∈ s.opened.toList ++ headers i ls := by
    rw [← map_headline_scan d]
    exact List.mem_map_of_mem h
  rcases List.mem_append.mp hm with hm | hm
  · exact .inl (Option.mem_toList.mp hm).symm
  · exact .inr (le_of_mem_headers hm)

def blockLength (d : Defaults) : Nat → List Line → State → Nat
  | _, [], _ => 0
  | i, l :: ls, s =>
      match classify l with
      | .header _ _ => 0
      | .delimiter =>
          if s.bodyOpen then blockLength d (i + 1) ls (s.step d i l).1 + 1 else 1
      | _ => blockLength d (i + 1) ls (s.step d i l).1 + 1

theorem blockLength_cons_of_header {l : Line} {k : Kind} {t : String}
    (h : classify l = .header k t) : blockLength d i (l :: ls) s = 0 := by
  simp only [blockLength, h]

theorem blockLength_cons_of_delimiter {l : Line} (h : classify l = .delimiter)
    (hs : s.bodyOpen = false) : blockLength d i (l :: ls) s = 1 := by
  simp [blockLength, h, hs]

theorem blockLength_cons {l : Line} (h : ∀ k t, classify l ≠ .header k t)
    (hs : classify l = .delimiter → s.bodyOpen = true) :
    blockLength d i (l :: ls) s = blockLength d (i + 1) ls (s.step d i l).1 + 1 := by
  cases hc : classify l with
  | header k t => exact absurd hc (h k t)
  | delimiter => simp [blockLength, hc, hs hc]
  | silent => simp only [blockLength, hc]
  | content => simp only [blockLength, hc]

theorem blockLength_le (d : Defaults) (i : Nat) (ls : List Line) (s : State) :
    blockLength d i ls s ≤ ls.length := by
  induction ls generalizing i s with
  | nil => exact Nat.le_refl 0
  | cons l ls ih =>
      have hs := ih (i + 1) (s.step d i l).1
      simp only [blockLength, List.length_cons]
      split
      · omega
      · split <;> omega
      · omega

theorem scan_of_ne_idle (d : Defaults) (i : Nat) (ls : List Line) {s : State} (hs : s ≠ .idle) :
    ∃ c, scan d i (ls.take (blockLength d i ls s)) s = [c] ∧
      scan d i ls s = c :: scan d (i + blockLength d i ls s) (ls.drop (blockLength d i ls s)) .idle ∧
      some c.headline = s.opened ∧ c.range.last = i + blockLength d i ls s - 1 := by
  induction ls generalizing i s with
  | nil =>
      obtain ⟨c, hc, ho, hl⟩ := close_of_ne_idle hs (i - 1)
      exact ⟨c, by simp [scan_nil, hc], by simp [scan_nil, hc], ho, hl⟩
  | cons l ls ih =>
      rcases step_cases d i l s with ⟨k, t, hk, hstep⟩ | ⟨hh, hd, _, hb, hstep⟩ | ⟨hh, hd, ho, hn⟩
      · obtain ⟨c, hc, ho, hl⟩ := close_of_ne_idle hs (i - 1)
        rw [blockLength_cons_of_header hk]
        refine ⟨c, by simp [scan_nil, hc], ?_, ho, hl⟩
        simp [scan_cons, hstep, hc, step_of_header (s := idle) hk]
      · obtain ⟨c, hc, ho, hl⟩ := close_of_ne_idle hs i
        rw [blockLength_cons_of_delimiter hd hb]
        refine ⟨c, by simp [scan_cons, scan_nil, hstep, hc], ?_, ho, hl⟩
        simp [scan_cons, hstep, hc]
      · have hs' : (s.step d i l).1 ≠ .idle := by
          rw [Ne, ← opened_eq_none, ho, opened_eq_none]
          exact hs
        obtain ⟨c, htake, hscan, hhead, hl⟩ := ih (i + 1) hs'
        rw [blockLength_cons hh (fun h => hd h hs)]
        refine ⟨c, ?_, ?_, hhead.trans ho, by omega⟩
        · simpa [scan_cons, hn] using htake
        · simp only [scan_cons, hn, Option.toList_none, List.nil_append, List.drop_succ_cons, hscan]
          rw [Nat.add_right_comm i 1, ← Nat.add_assoc]

theorem pairwise_scan (d : Defaults) (i : Nat) (ls : List Line) {s : State}
    (h : ∀ o, s.opened = some o → o.1 < i) :
    (scan d i ls s).Pairwise (fun a b => a.range.last < b.range.first) := by
  have hsingle (o : Option Command) :
      o.toList.Pairwise (fun a b => a.range.last < b.range.first) := by
    cases o <;> simp
  induction ls generalizing i s with
  | nil => exact hsingle _
  | cons l ls ih =>
      rw [scan_cons]
      rcases step_cases d i l s with ⟨k, t, _, hstep⟩ | ⟨_, _, hs, _, hstep⟩ | ⟨_, _, ho, hn⟩
      · rw [hstep, List.pairwise_append]
        refine ⟨hsingle _, ih (i + 1) (by simp [opened, Draft.start]), ?_⟩
        intro a ha b hb
        have hs : s ≠ .idle := by rintro rfl; simp at ha
        obtain ⟨c, hc, ho, hl⟩ := close_of_ne_idle hs (i - 1)
        obtain rfl : a = c := by simpa [hc] using ha
        have hi := h _ ho.symm
        have hb' : i ≤ b.range.first := by
          rcases first_of_mem_scan hb with hb | hb
          · simp only [opened, Draft.start, Command.headline, Option.some.injEq, Prod.mk.injEq] at hb
            omega
          · omega
        omega
      · rw [hstep, List.pairwise_append]
        refine ⟨hsingle _, ih (i + 1) (by simp [opened]), ?_⟩
        intro a ha b hb
        obtain ⟨c, hc, _, hl⟩ := close_of_ne_idle hs i
        obtain rfl : a = c := by simpa [hc] using ha
        rcases first_of_mem_scan hb with hb | hb
        · simp [opened] at hb
        · omega
      · rw [hn]
        exact ih (i + 1) (fun o hs => Nat.lt_succ_of_lt (h o (ho ▸ hs)))

def OpensAt (d : Defaults) (i : Nat) (ls : List Line) (n : Nat) (c : Command) : Prop :=
  ∃ line k t tail, ls[n]? = some line ∧ classify line = .header k t ∧
    scan d (i + n + 1) (ls.drop (n + 1)) (.inBlock (.start d k t (i + n))) = c :: tail

theorem OpensAt.cons {l : Line} {n : Nat} {c : Command} (h : OpensAt d (i + 1) ls n c) :
    OpensAt d i (l :: ls) (n + 1) c := by
  obtain ⟨line, k, t, tail, hn, hk, hscan⟩ := h
  refine ⟨line, k, t, tail, by simpa using hn, hk, ?_⟩
  rw [← Nat.add_assoc, Nat.add_right_comm i n 1, List.drop_succ_cons]
  exact hscan

theorem opensAt_of_mem_scan {c : Command} (h : c ∈ scan d i ls s) :
    (s ≠ .idle ∧ ∃ tail, scan d i ls s = c :: tail) ∨ ∃ n, OpensAt d i ls n c := by
  induction ls generalizing i s with
  | nil =>
      by_cases hs : s = .idle
      · simp [hs, scan_nil] at h
      · obtain ⟨a, ha, _⟩ := close_of_ne_idle hs (i - 1)
        obtain rfl : c = a := by simpa [scan_nil, ha] using h
        exact .inl ⟨hs, [], by simp [scan_nil, ha]⟩
  | cons l ls ih =>
      rw [scan_cons] at h ⊢
      rcases step_cases d i l s with ⟨k, t, hk, hstep⟩ | ⟨_, _, hs, _, hstep⟩ | ⟨_, _, ho, hn⟩
      · rw [hstep] at h ⊢
        rcases List.mem_append.mp h with h | h
        · have hs : s ≠ .idle := by rintro rfl; simp at h
          obtain ⟨a, ha, _⟩ := close_of_ne_idle hs (i - 1)
          obtain rfl : c = a := by simpa [ha] using h
          exact .inl ⟨hs, _, by rw [ha]; rfl⟩
        · rcases ih h with ⟨_, tail, hscan⟩ | ⟨n, hn⟩
          · exact .inr ⟨0, l, k, t, tail, rfl, hk, hscan⟩
          · exact .inr ⟨n + 1, hn.cons⟩
      · rw [hstep] at h ⊢
        obtain ⟨a, ha, _⟩ := close_of_ne_idle hs i
        rcases List.mem_append.mp h with h | h
        · obtain rfl : c = a := by simpa [ha] using h
          exact .inl ⟨hs, _, by rw [ha]; rfl⟩
        · rcases ih h with ⟨hidle, _⟩ | ⟨n, hn⟩
          · exact absurd rfl hidle
          · exact .inr ⟨n + 1, hn.cons⟩
      · simp only [hn, Option.toList_none, List.nil_append] at h ⊢
        rcases ih h with ⟨hs, htail⟩ | ⟨n, hn⟩
        · rw [Ne, ← opened_eq_none, ho, opened_eq_none] at hs
          exact .inl ⟨hs, htail⟩
        · exact .inr ⟨n + 1, hn.cons⟩

end State

end QueueScript.Script
