import QueueScript.Proofs.Runner.Registry

namespace QueueScript

namespace Run

theorem outcome?_eq {a b : Run} (horigin : a.origin = b.origin) (hphase : a.phase = b.phase) :
    a.outcome? = b.outcome? := by
  have hkey : a.key = b.key := congrArg (fun o => o.2.1) horigin
  rw [outcome?, outcome?, hphase, hkey]

def label (run : Run) : Nat × Bool := (run.id, run.taken)

end Run

namespace Bench

theorem label_call (b : Bench) (run : Run) (i : Invocation) :
    (b.call run i).2.label = run.label := by
  obtain ⟨o, ho⟩ := b.exists_call_eq run i
  rw [ho]
  rfl

theorem label_start (now : Nat) (b : Bench) (run : Run) :
    (b.start now run).2.label = run.label := by
  rw [start]
  split
  · split
    · rfl
    · simp only
      split
      · exact label_call _ run _
      · rfl
  · rfl

theorem label_settle (now : Nat) (b : Bench) (run : Run) :
    (b.settle now run).2.label = run.label := by
  rw [settle]
  split
  · split
    · exact label_call b run _
    · rfl
  · rfl

theorem map_label_each {f : Bench → Run → Bench × Run}
    (hf : ∀ b run, (f b run).2.label = run.label) (b : Bench) (runs : List Run) :
    (b.each f runs).2.map Run.label = runs.map Run.label := by
  induction runs generalizing b with
  | nil => rfl
  | cons run runs ih =>
      simp only [each, List.map_cons, ih, hf]

end Bench

namespace Runner

variable {r : Runner}

theorem map_label_poll (r : Runner) : r.poll.runs.map Run.label = r.runs.map Run.label :=
  Bench.map_label_each (Bench.label_start r.now) r.bench r.runs

theorem map_label_moveTo (r : Runner) (later : Nat) :
    (r.moveTo later).runs.map Run.label = r.runs.map Run.label :=
  Bench.map_label_each (Bench.label_settle later) r.bench r.runs

theorem map_label_await (r : Runner) (id : Nat) :
    (r.await id).runs.map Run.label = r.runs.map Run.label := by
  simp only [await]
  split
  · exact (r.poll.map_label_moveTo _).trans r.map_label_poll
  · exact r.map_label_poll

theorem map_label_freed (r : Runner) (key : Nat) :
    (r.freed key).map Run.label = r.runs.map Run.label := map_freed (fun _ => rfl) r key

theorem Sound.exists_find? (s : Sound r) {id : Nat} (h : id < r.runs.length) :
    ∃ run ∈ r.runs, run.id = id ∧ r.find? id = some run := by
  have hid : id ∈ r.runs.map Run.id := s.ids ▸ List.mem_range.mpr h
  obtain ⟨x, hx, hxid⟩ := List.mem_map.mp hid
  cases hf : r.find? id with
  | none =>
      have hnone := List.find?_eq_none.mp hf x hx
      simp [hxid] at hnone
  | some run =>
      exact ⟨run, List.mem_of_find?_eq_some hf, by simpa using List.find?_some hf, rfl⟩

theorem Sound.lt_length (s : Sound r) {run : Run} (h : run ∈ r.runs) : run.id < r.runs.length := by
  rw [← List.mem_range, ← s.ids]
  exact List.mem_map_of_mem h

def Asked (events : List Event) (id : Nat) : Prop :=
  ∃ before later, events = before ++ .outcome id :: later ∧ id < (created before).length

theorem Asked.concat {events : List Event} {id : Nat} (h : Asked events id) (e : Event) :
    Asked (events ++ [e]) id := by
  obtain ⟨before, later, rfl, hid⟩ := h
  exact ⟨before, later ++ [e], by simp, hid⟩

theorem label_step (s : Sound r) (e : Event) {id : Nat}
    (h : (id, true) ∈ (r.step e).1.runs.map Run.label) :
    (id, true) ∈ r.runs.map Run.label ∨ e = .outcome id ∧ id < r.runs.length := by
  cases e with
  | run c =>
      simp only [step, runs_run, List.map_append, map_label_freed] at h
      rcases List.mem_append.mp h with h | h
      · exact .inl h
      · simp [Run.label] at h
  | poll => exact .inl (r.map_label_poll ▸ h)
  | advance time => exact .inl (r.map_label_poll ▸ r.poll.map_label_moveTo _ ▸ h)
  | cancel key =>
      simp only [step, runs_cancel, map_label_freed] at h
      exact .inl h
  | isRunning key => exact .inl h
  | outcome n =>
      simp only [step, outcome] at h
      split at h
      · exact .inl h
      · rename_i run hf
        split at h
        · exact .inl h
        · obtain ⟨y, hy, hlabel⟩ := List.mem_map.mp h
          obtain ⟨x, hx, rfl⟩ := List.mem_map.mp hy
          split at hlabel
          · rename_i hid
            have hn : run.id = n := by simpa using List.find?_some hf
            have hlt := s.lt_length (List.mem_of_find?_eq_some hf)
            obtain rfl : x.id = id := congrArg Prod.fst hlabel
            rw [← hid] at hn ⊢
            exact .inr ⟨rfl, hn ▸ hlt⟩
          · rw [← map_label_await r n, ← hlabel]
            exact .inl (List.mem_map_of_mem hx)

theorem length_runs_after (service : Service) (events : List Event) :
    ((start service).after events).runs.length = (created events).length := by
  have h := congrArg List.length (map_origin_after service events)
  rwa [List.length_map, List.length_mapIdx] at h

theorem asked_of_taken {service : Service} {events : List Event} {x : Run}
    (hx : x ∈ ((start service).after events).runs) (ht : x.taken = true) : Asked events x.id := by
  have hlabel : (x.id, true) ∈ ((start service).after events).runs.map Run.label :=
    List.mem_map.mpr ⟨x, hx, by rw [Run.label, ht]⟩
  clear hx ht
  induction events using List.reverseRecOn with
  | nil => simp [after, start] at hlabel
  | append_singleton events e ih =>
      rw [after_concat] at hlabel
      rcases label_step ((Sound.start service).after events) e hlabel with h | ⟨rfl, h⟩
      · exact (ih h).concat e
      · exact ⟨events, [], rfl, by rwa [length_runs_after] at h⟩

def Keeps (r : Runner) (x : Run) : Prop :=
  ∃ y ∈ r.runs, y.origin = x.origin ∧ y.phase = x.phase

theorem Registered.mem_freed (h : Registered r) (s : Sound r) {x : Run} (hx : x ∈ r.runs)
    (hover : x.isLive = false) (key : Nat) : x ∈ r.freed key := by
  rw [freed]
  split
  · rename_i id hk
    refine List.mem_map.mpr ⟨x, hx, if_neg ?_⟩
    rintro rfl
    obtain ⟨y, hy, hid, _, hlive⟩ := h.lookup_iff.mp hk
    rw [s.eq_of_id hy hx hid, hover] at hlive
    cases hlive
  · exact hx

theorem Keeps.after {x : Run} (k : Keeps r x) (hover : x.isLive = false) (h : Registered r)
    (s : Sound r) (events : List Event) : Keeps (r.after events) x := by
  have hover' {y : Run} (hphase : y.phase = x.phase) : y.isLive = false :=
    (congrArg Phase.isLive hphase).trans hover
  refine (after_invariant (P := fun r => Registered r ∧ Keeps r x) ?_ ?_ ?_ s ⟨h, k⟩ events).2
  · rintro r c s ⟨h, y, hy, horigin, hphase⟩
    refine ⟨h.run c, y, ?_, horigin, hphase⟩
    rw [runs_run]
    exact List.mem_append_left _ (h.mem_freed s hy (hover' hphase) _)
  · rintro r key s ⟨h, y, hy, horigin, hphase⟩
    refine ⟨h.cancel key, y, ?_, horigin, hphase⟩
    rw [runs_cancel]
    exact h.mem_freed s hy (hover' hphase) key
  · rintro r r' s ⟨h, y, hy, horigin, hphase⟩ hw
    obtain ⟨z, hz, hleads⟩ := exists_of_mem_left hw.leads hy
    exact ⟨h.work hw, z, hz, hleads.origin.symm.trans horigin,
      (hleads.phase_eq (hover' hphase)).trans hphase⟩

theorem Sound.exists_outcome (s : Sound r) {id : Nat} (hid : id < r.runs.length)
    (hfresh : ∀ x ∈ r.runs, x.id = id → x.taken = false) :
    ∃ y ∈ (r.step (.outcome id)).1.runs, y.id = id ∧ y.isLive = false ∧
      (r.step (.outcome id)).2 = .outcome y.outcome? := by
  obtain ⟨x, hx, hxid, hfind⟩ := s.exists_find? hid
  obtain ⟨hworks, hover⟩ := s.await id
  have hid' : id < (r.await id).runs.length := hworks.leads.length_eq ▸ hid
  obtain ⟨y, hy, hyid, hfind'⟩ := (s.works hworks).exists_find? hid'
  simp only [Runner.step, Runner.outcome, hfind, hfresh x hx hxid, hfind']
  refine ⟨{ y with taken := true }, List.mem_map.mpr ⟨y, hy, if_pos hyid⟩, hyid, ?_, rfl⟩
  exact hover y hy hyid

theorem Sound.exists_over (s : Sound r) {id : Nat} (hid : id < r.runs.length) :
    ∃ y ∈ (r.step (.outcome id)).1.runs, y.id = id ∧ y.isLive = false := by
  obtain ⟨x, hx, hxid, _⟩ := s.exists_find? hid
  cases ht : x.taken with
  | true =>
      obtain ⟨y, hy, hleads⟩ := exists_of_mem_left (s.outcome id).leads hx
      have hyid : y.id = x.id := congrArg Prod.fst hleads.origin.symm
      exact ⟨y, hy, hyid.trans hxid, hleads.not_live (s.taken x hx ht)⟩
  | false =>
      obtain ⟨y, hy, hyid, hover, _⟩ := s.exists_outcome hid (fun x' hx' hid' =>
        s.eq_of_id hx' hx (hid'.trans hxid.symm) ▸ ht)
      exact ⟨y, hy, hyid, hover⟩

theorem keeps_of_over {service : Service} {before : List Event} {e : Event} {y : Run}
    (hy : y ∈ (((start service).after before).step e).1.runs) (hover : y.isLive = false)
    (later : List Event) :
    Keeps ((start service).after (before ++ e :: later)) y := by
  rw [List.append_cons, after_append]
  rw [← after_concat] at hy
  exact Keeps.after ⟨y, hy, rfl, rfl⟩ hover (.after service _) ((Sound.start service).after _) later

theorem not_live_of_asked {service : Service} {events : List Event} {x : Run}
    (hx : x ∈ ((start service).after events).runs) (h : Asked events x.id) : x.isLive = false := by
  obtain ⟨before, later, hevents, hid⟩ := h
  rw [← length_runs_after service] at hid
  obtain ⟨y, hy, hyid, hover⟩ := ((Sound.start service).after before).exists_over hid
  obtain ⟨z, hz, horigin, hphase⟩ := keeps_of_over hy hover later
  rw [← hevents] at hz
  have hzid : z.id = x.id := (congrArg Prod.fst horigin).trans hyid
  rw [← ((Sound.start service).after events).eq_of_id hz hx hzid]
  exact (congrArg Phase.isLive hphase).trans hover

theorem answer_of_first (service : Service) {before : List Event} {id : Nat}
    (hid : id < (created before).length) (hfirst : ¬ Asked before id) (later : List Event) :
    ∃ run ∈ ((start service).after (before ++ .outcome id :: later)).runs, run.id = id ∧
      run.isLive = false ∧
      (((start service).after before).step (.outcome id)).2 = .outcome run.outcome? := by
  rw [← length_runs_after service] at hid
  have hfresh : ∀ x ∈ ((start service).after before).runs, x.id = id → x.taken = false := by
    rintro x hx rfl
    exact Bool.eq_false_iff.mpr fun ht => hfirst (asked_of_taken hx ht)
  obtain ⟨y, hy, hyid, hover, hanswer⟩ :=
    ((Sound.start service).after before).exists_outcome hid hfresh
  obtain ⟨z, hz, horigin, hphase⟩ := keeps_of_over hy hover later
  refine ⟨z, hz, (congrArg Prod.fst horigin).trans hyid,
    (congrArg Phase.isLive hphase).trans hover, ?_⟩
  rw [hanswer, Run.outcome?_eq horigin hphase]

end Runner

end QueueScript
