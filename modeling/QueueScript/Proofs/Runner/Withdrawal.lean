import QueueScript.Proofs.Runner.Outcome

namespace QueueScript.Runner

def Event.withdraws (key : Nat) : Event → Bool
  | .run c => c.range.first == key
  | .cancel k => k == key
  | _ => false

def Withdraws (r : Runner) (e : Event) (n : Nat) : Prop :=
  ∃ run ∈ r.runs, run.id = n ∧ run.isLive = true ∧ e.withdraws run.key = true

def Withdrawn (service : Service) (events : List Event) (n : Nat) : Prop :=
  ∃ past e later, events = past ++ e :: later ∧ Withdraws ((start service).after past) e n

variable {r r' : Runner} {service : Service} {events : List Event} {e : Event} {n : Nat}

theorem withdrawn_concat :
    Withdrawn service (events ++ [e]) n ↔
      Withdrawn service events n ∨ Withdraws ((start service).after events) e n := by
  constructor
  · rintro ⟨past, x, later, hevents, h⟩
    rcases List.eq_nil_or_concat later with rfl | ⟨later, y, rfl⟩
    · obtain ⟨rfl, hx⟩ := List.append_inj' hevents rfl
      obtain rfl : e = x := (List.cons.inj hx).1
      exact .inr h
    · rw [List.concat_eq_append, ← List.cons_append, ← List.append_assoc] at hevents
      exact .inl ⟨past, x, later, (List.append_inj' hevents rfl).1, h⟩
  · rintro (⟨past, x, later, rfl, h⟩ | h)
    · exact ⟨past, x, later ++ [e], by rw [List.append_assoc, List.cons_append], h⟩
    · exact ⟨events, e, [], rfl, h⟩

theorem Withdrawn.lt_created (h : Withdrawn service events n) : n < (created events).length := by
  obtain ⟨past, e, later, rfl, run, hrun, rfl, _⟩ := h
  have hlt := ((Sound.start service).after past).lt_length hrun
  rw [length_runs_after] at hlt
  rw [created_append, List.length_append]
  omega

theorem freed_eq_map (r : Runner) (key : Nat) :
    r.freed key = r.runs.map (fun run =>
      if Table.lookup key r.bench.registry = some run.id then { run with phase := .aborted }
      else run) := by
  rw [freed]
  split
  · rename_i id hk
    refine List.map_congr_left ?_
    intro x _
    simp only [hk, Option.some.injEq, eq_comm]
  · rename_i hk
    simp [hk]

theorem Registered.lookup_eq_id_iff (h : Registered r) (s : Sound r) {run : Run}
    (hrun : run ∈ r.runs) (key : Nat) :
    Table.lookup key r.bench.registry = some run.id ↔ run.isLive = true ∧ run.key = key := by
  constructor
  · intro hk
    obtain ⟨x, hx, hid, hkey, hlive⟩ := h.lookup_iff.mp hk
    obtain rfl := s.eq_of_id hx hrun hid
    exact ⟨hlive, hkey⟩
  · rintro ⟨hlive, rfl⟩
    exact h.lookup_of_live hrun hlive

theorem Registered.aborted_freed (h : Registered r) (s : Sound r) {key : Nat} {y : Run}
    (hy : y ∈ r.freed key) :
    y.phase = .aborted ↔ ∃ x ∈ r.runs, x.id = y.id ∧
      (x.phase = .aborted ∨ x.isLive = true ∧ x.key = key) := by
  rw [freed_eq_map] at hy
  obtain ⟨x, hx, rfl⟩ := List.mem_map.mp hy
  have hregistered := h.lookup_eq_id_iff s hx key
  split
  · rename_i hk
    exact iff_of_true rfl ⟨x, hx, rfl, .inr (hregistered.mp hk)⟩
  · rename_i hk
    constructor
    · intro haborted
      exact ⟨x, hx, rfl, .inl haborted⟩
    · rintro ⟨z, hz, hid, hcause⟩
      obtain rfl := s.eq_of_id hz hx hid
      exact hcause.resolve_right (hregistered.not.mp hk)

theorem aborted_works (s : Sound r) (hw : Works r r') {y : Run} (hy : y ∈ r'.runs) :
    y.phase = .aborted ↔ ∃ x ∈ r.runs, x.id = y.id ∧ x.phase = .aborted := by
  obtain ⟨x, hx, hleads⟩ := exists_of_mem_right hw.leads hy
  have hxy : x.id = y.id := congrArg Prod.fst hleads.origin
  constructor
  · intro haborted
    refine ⟨x, hx, hxy, ?_⟩
    by_contra hne
    exact hleads.phase.ne_aborted hne haborted
  · rintro ⟨z, hz, hid, haborted⟩
    obtain rfl := s.eq_of_id hz hx (hid.trans hxy.symm)
    rw [hleads.phase_eq (by rw [Run.isLive, haborted, Phase.isLive]), haborted]

theorem works_of_not_withdraws (s : Sound r) (he : ∀ key, e.withdraws key = false) :
    Works r (r.step e).1 := by
  rcases step_cases s e with ⟨c, rfl, _⟩ | ⟨key, rfl, _⟩ | ⟨_, hworks⟩
  · exact absurd (he c.range.first) (by simp [Event.withdraws])
  · exact absurd (he key) (by simp [Event.withdraws])
  · exact hworks

theorem Registered.aborted_step (h : Registered r) (s : Sound r) (e : Event) {y : Run}
    (hy : y ∈ (r.step e).1.runs) :
    y.phase = .aborted ↔
      (∃ x ∈ r.runs, x.id = y.id ∧ x.phase = .aborted) ∨ Withdraws r e y.id := by
  have hsplit (key : Nat) (he : ∀ k, e.withdraws k = (key == k)) :
      (∃ x ∈ r.runs, x.id = y.id ∧ (x.phase = .aborted ∨ x.isLive = true ∧ x.key = key)) ↔
        (∃ x ∈ r.runs, x.id = y.id ∧ x.phase = .aborted) ∨ Withdraws r e y.id := by
    simp only [Withdraws, he, beq_iff_eq, eq_comm (a := key), and_or_left, exists_or]
  cases e with
  | run c =>
      rw [← hsplit c.range.first (fun _ => rfl)]
      have hruns : (r.step (.run c)).1.runs = (r.run c).1.runs := rfl
      rw [hruns, runs_run] at hy
      rcases List.mem_append.mp hy with hy | hy
      · exact h.aborted_freed s hy
      · rw [List.mem_singleton.mp hy]
        refine iff_of_false (by simp) ?_
        rintro ⟨x, hx, hid, _⟩
        have hlt := s.lt_length hx
        rw [hid] at hlt
        exact Nat.lt_irrefl _ hlt
  | cancel key =>
      rw [← hsplit key (fun _ => rfl)]
      have hruns : (r.step (.cancel key)).1.runs = (r.cancel key).1.runs := rfl
      rw [hruns, runs_cancel] at hy
      exact h.aborted_freed s hy
  | poll | advance | isRunning | outcome =>
      rw [aborted_works s (works_of_not_withdraws s (fun _ => rfl)) hy]
      simp [Withdraws, Event.withdraws]

theorem aborted_iff_withdrawn {y : Run} (hy : y ∈ ((start service).after events).runs) :
    y.phase = .aborted ↔ Withdrawn service events y.id := by
  induction events using List.reverseRecOn generalizing y with
  | nil => simp [after, start] at hy
  | append_singleton events e ih =>
      have s : Sound ((start service).after events) := (Sound.start service).after events
      rw [after_concat] at hy
      rw [Registered.aborted_step (.after service events) s e hy, withdrawn_concat]
      refine or_congr_left ?_
      constructor
      · rintro ⟨x, hx, hid, haborted⟩
        rw [← hid]
        exact (ih hx).mp haborted
      · intro hwithdrawn
        have hlt := hwithdrawn.lt_created
        rw [← length_runs_after service] at hlt
        obtain ⟨x, hx, hid, _⟩ := s.exists_find? hlt
        rw [← hid] at hwithdrawn
        exact ⟨x, hx, hid, (ih hx).mpr hwithdrawn⟩

end QueueScript.Runner
