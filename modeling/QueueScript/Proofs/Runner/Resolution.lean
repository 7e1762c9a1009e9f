import QueueScript.Proofs.Runner.Serial
import QueueScript.Proofs.Runner.Withdrawal

namespace QueueScript

namespace Service

def call : Service → Invocation → Service × Outcome
  | .memory store latency, i =>
      (.memory (store.call i.request).1 latency,
        .result ((store.call i.request).2.mapError .service))
  | .failing error, _ => (.failing error, .result (.error (.service error)))
  | .broken text, i => (.broken text, .breakdown (text ++ " " ++ i.request.queue))

def execute (service : Service) (c : Command) : Service × Outcome :=
  match Invocation.ofCommand c with
  | .error e => (service, .result (.error (.missingBody e)))
  | .ok i => service.call i

def after (service : Service) (cs : List Command) : Service :=
  cs.foldl (fun s c => (s.execute c).1) service

theorem execute_of_error {c : Command} {e : MissingBody} (service : Service)
    (h : Invocation.ofCommand c = .error e) :
    service.execute c = (service, .result (.error (.missingBody e))) := by
  simp only [execute, h]

theorem execute_of_ok {c : Command} {i : Invocation} (service : Service)
    (h : Invocation.ofCommand c = .ok i) : service.execute c = service.call i := by
  simp only [execute, h]

theorem execute_memory (store : Store) (latency : Nat) (c : Command) :
    (memory store latency).execute c =
      (.memory (store.execute c).1 latency, .result (store.execute c).2) := by
  cases h : Invocation.ofCommand c with
  | error e => rw [execute_of_error _ h, store.execute_of_error h]
  | ok i =>
      rw [execute_of_ok _ h, store.execute_of_ok h]
      rfl

theorem after_memory (store : Store) (latency : Nat) (cs : List Command) :
    (memory store latency).after cs = .memory (store.executeAll cs).1 latency := by
  induction cs generalizing store with
  | nil => rfl
  | cons c cs ih =>
      rw [after, List.foldl_cons, execute_memory, ← after, ih, Store.executeAll_cons]

theorem execute_ne_cancelled (service : Service) (c : Command) (line : Nat) :
    (service.execute c).2 ≠ .result (.error (.cancelled line)) := by
  cases h : Invocation.ofCommand c with
  | error e =>
      rw [execute_of_error _ h]
      simp
  | ok i =>
      rw [execute_of_ok _ h]
      cases service with
      | memory store latency =>
          simp only [call, ne_eq, Outcome.result.injEq]
          cases (store.call i.request).2 <;> simp [Except.mapError]
      | failing error => simp [call]
      | broken text => simp [call]

def IsSteady (service : Service) : Prop := ∀ i, (service.call i).1 = service

theorem IsSteady.after_eq {service : Service} (h : service.IsSteady) (cs : List Command) :
    service.after cs = service := by
  have hexecute (c : Command) : (service.execute c).1 = service := by
    cases hi : Invocation.ofCommand c with
    | error e => rw [execute_of_error _ hi]
    | ok i => rw [execute_of_ok _ hi, h i]
  induction cs with
  | nil => rfl
  | cons c cs ih => rw [after, List.foldl_cons, hexecute, ← after, ih]

end Service

theorem Bench.call_eq_call (b : Bench) (run : Run) (i : Invocation) :
    (b.call run i).1.service = (b.service.call i).1 ∧
      (b.call run i).2 = { run with phase := .finished (b.service.call i).2 } := by
  cases h : b.service with
  | memory store latency =>
      simp only [call, h, finish, service_deregister, tell, Service.call, and_self]
  | failing error => simp only [call, h, finish, service_deregister, Service.call, and_self]
  | broken text => simp only [call, h, finish, service_deregister, Service.call, and_self]

theorem Sequential.eq_result {store : Store} {latency : Nat} {b : Bench}
    {front back : List (Command × Outcome)} {c : Command} {o : Outcome}
    (h : Sequential store latency b (front ++ (c, o) :: back)) :
    o = .result ((store.executeAll (front.map Prod.fst)).1.execute c).2 := by
  have hresults := h.results
  rw [List.map_append, List.map_cons, List.map_append, List.map_cons, Store.executeAll_append,
    Store.executeAll_cons, List.map_append, List.map_cons] at hresults
  obtain ⟨_, hback⟩ := List.append_inj hresults (by
    rw [List.length_map, List.length_map, Store.length_executeAll, List.length_map])
  exact (List.cons.inj hback).1

namespace Runner

variable {service : Service} {r r' : Runner} {events : List Event} {n : Nat}

structure Steady (service : Service) (r : Runner) : Prop where
  unchanged : r.bench.service = service
  finished : ∀ x ∈ r.runs, ∀ o, x.phase = .finished o → o = (service.execute x.command).2

namespace Steady

theorem replace {b b' : Bench} {pre post : List Run} {run y : Run} {now : Nat}
    (h : Steady service ⟨b, pre ++ run :: post, now⟩) (hservice : b'.service = b.service)
    (hy : ∀ o, y.phase = .finished o → o = (service.execute y.command).2) :
    Steady service ⟨b', pre ++ y :: post, now⟩ := by
  refine ⟨hservice.trans h.unchanged, ?_⟩
  intro x hx
  rcases List.mem_append.mp hx with hx | hx
  · exact h.finished x (List.mem_append_left _ hx)
  · rcases List.mem_cons.mp hx with rfl | hx
    · exact hy
    · exact h.finished x (List.mem_append_right _ (List.mem_cons_of_mem _ hx))

theorem map {b : Bench} {f : Run → Run} {now : Nat} (h : Steady service r)
    (hservice : b.service = r.bench.service) (hcommand : ∀ x, (f x).command = x.command)
    (hphase : ∀ x, (f x).phase = x.phase ∨ (f x).phase = .aborted) :
    Steady service ⟨b, r.runs.map f, now⟩ := by
  refine ⟨hservice.trans h.unchanged, ?_⟩
  intro y hy o ho
  obtain ⟨x, hx, rfl⟩ := List.mem_map.mp hy
  rw [hcommand]
  rcases hphase x with hp | hp
  · exact h.finished x hx o (hp ▸ ho)
  · rw [hp] at ho
    cases ho

theorem call {b : Bench} {pre post : List Run} {run : Run} {i : Invocation} {now : Nat}
    (h : Steady service ⟨b, pre ++ run :: post, now⟩) (hs : service.IsSteady)
    (maps : Invocation.ofCommand run.command = .ok i) (e : List Log.Entry) :
    Steady service ⟨({ b with log := e }.call run i).1,
      pre ++ ({ b with log := e }.call run i).2 :: post, now⟩ := by
  obtain ⟨hservice, hrun⟩ := Bench.call_eq_call { b with log := e } run i
  have hb : b.service = service := h.unchanged
  rw [hrun]
  refine h.replace (hservice.trans ?_) ?_
  · rw [hb]
    exact hs i
  · rintro o ⟨⟩
    rw [service.execute_of_ok maps]
    exact congrArg (fun s => (s.call i).2) hb

theorem work (h : Steady service r) (hs : service.IsSteady) (t : Timed r) (hw : Work r r') :
    Steady service r' := by
  cases hw with
  | begin => exact h.replace rfl (by simp)
  | @refuse b pre post run e now waits turn fails =>
      refine h.replace (b.service_deregister run) ?_
      rintro o ⟨⟩
      rw [service.execute_of_error fails]
  | callAtOnce waits turn maps => exact h.call hs maps _
  | @callDue b pre post run i now deadline started =>
      exact h.call hs (t.due run (by simp) i deadline started).1 b.log
  | tick => exact ⟨h.unchanged, h.finished⟩
  | @take b runs now id =>
      refine h.map rfl ?_ ?_
      · intro x
        split <;> rfl
      · intro x
        split <;> exact .inl rfl

theorem freed (h : Steady service r) (b : Bench) (hservice : b.service = r.bench.service)
    (key : Nat) : Steady service ⟨b, r.freed key, r.now⟩ := by
  rw [freed_eq_map]
  refine h.map hservice ?_ ?_
  · intro x
    split <;> rfl
  · intro x
    split
    · exact .inr rfl
    · exact .inl rfl

end Steady

theorem steady_after (hs : service.IsSteady) (events : List Event) :
    Steady service ((start service).after events) := by
  refine after_invariant ?_ ?_ ?_ (Sound.start service) ⟨rfl, by simp [start]⟩ events
  · intro r c _ h
    have hfreed := h.freed _ (r.service_run c) c.range.first
    refine ⟨hfreed.unchanged, ?_⟩
    intro x hx
    rw [runs_run] at hx
    rcases List.mem_append.mp hx with hx | hx
    · exact hfreed.finished x hx
    · rw [List.mem_singleton.mp hx]
      simp
  · intro r key _ h
    have hfreed := h.freed _ (r.service_cancel key) key
    refine ⟨hfreed.unchanged, ?_⟩
    rw [runs_cancel]
    exact hfreed.finished
  · intro r r' s h hw
    exact h.work hs s.timed hw

def finishedBefore (r : Runner) (n : Nat) : List Command :=
  ((r.runs.take n).filterMap Run.ending?).map Prod.fst

theorem Sound.getElem?_id (s : Sound r) {x : Run} (hx : x ∈ r.runs) : r.runs[x.id]? = some x := by
  obtain ⟨i, hi, rfl⟩ := List.getElem_of_mem hx
  have hid : (r.runs[i]).id = i := by
    have hget : (r.runs.map Run.id)[i]? = some i := by
      rw [s.ids]
      exact List.getElem?_range hi
    simpa [hi] using hget
  rw [hid, List.getElem?_eq_getElem hi]

theorem Sound.split (s : Sound r) {x : Run} (hx : x ∈ r.runs) :
    r.runs = r.runs.take x.id ++ x :: r.runs.drop (x.id + 1) := by
  obtain ⟨hlt, hget⟩ := List.getElem?_eq_some_iff.mp (s.getElem?_id hx)
  rw [← congrArg (· :: r.runs.drop (x.id + 1)) hget, ← List.drop_eq_getElem_cons hlt,
    List.take_append_drop]

theorem origin_of_created {x : Run} {c : Command} (hx : x ∈ ((start service).after events).runs)
    (hc : (created events)[x.id]? = some c) : x.origin = (x.id, c.range.first, c) := by
  have hget := congrArg (·[x.id]?) (map_origin_after service events)
  simp only [List.getElem?_map, List.getElem?_mapIdx, hc, Option.map_some,
    ((Sound.start service).after events).getElem?_id hx] at hget
  exact Option.some.inj hget

theorem eq_execute_of_finished {x : Run} {o : Outcome}
    (hx : x ∈ ((start service).after events).runs) (ho : x.phase = .finished o) :
    o = ((service.after (((start service).after events).finishedBefore x.id)).execute
      x.command).2 := by
  have hsteady (hs : service.IsSteady) : o = ((service.after
      (((start service).after events).finishedBefore x.id)).execute x.command).2 := by
    rw [hs.after_eq]
    exact (steady_after hs events).finished x hx o ho
  cases service with
  | memory store latency =>
      have h : Serial store latency _ := serial_after store latency events
      rw [Serial, endings, ((Sound.start _).after events).split hx, List.filterMap_append,
        List.filterMap_cons_some (b := (x.command, o)) (by rw [Run.ending?, ho])] at h
      rw [h.eq_result, Service.after_memory, Service.execute_memory]
      rfl
  | failing error => exact hsteady (fun _ => rfl)
  | broken text => exact hsteady (fun _ => rfl)

theorem Work.taken (hw : Work r r') (h : (n, true) ∈ r.runs.map Run.label) :
    (n, true) ∈ r'.runs.map Run.label := by
  cases hw with
  | begin | refuse =>
      rw [List.map_append, List.map_cons] at h ⊢
      exact h
  | callAtOnce | callDue =>
      rw [List.map_append, List.map_cons] at h ⊢
      rw [Bench.label_call]
      exact h
  | tick => exact h
  | take id =>
      obtain ⟨x, hx, hlabel⟩ := List.mem_map.mp h
      refine List.mem_map.mpr ⟨_, List.mem_map_of_mem hx, ?_⟩
      have hid : x.id = n := congrArg Prod.fst hlabel
      split
      · rw [Run.label, hid]
      · exact hlabel

theorem Sound.taken_outcome (s : Sound r) (hn : n < r.runs.length) :
    (n, true) ∈ (r.step (.outcome n)).1.runs.map Run.label := by
  obtain ⟨x, hx, hid, hfind⟩ := s.exists_find? hn
  cases ht : x.taken with
  | true =>
      simp only [Runner.step, Runner.outcome, hfind, ht]
      exact List.mem_map.mpr ⟨x, hx, by rw [Run.label, hid, ht]⟩
  | false =>
      obtain ⟨y, hy, hleads⟩ := exists_of_mem_left (s.await n).1.leads hx
      have hyid : y.id = n := (congrArg Prod.fst hleads.origin.symm).trans hid
      simp only [Runner.step, Runner.outcome, hfind, ht]
      refine List.mem_map.mpr ⟨_, List.mem_map_of_mem hy, ?_⟩
      rw [if_pos hyid, Run.label, hyid]

theorem taken_of_asked (service : Service) (h : Asked events n) :
    (n, true) ∈ ((start service).after events).runs.map Run.label := by
  obtain ⟨before, later, rfl, hn⟩ := h
  have s : Sound ((start service).after before) := (Sound.start service).after before
  rw [← length_runs_after service] at hn
  rw [List.append_cons, after_append, after_concat]
  refine after_invariant (P := fun r => (n, true) ∈ r.runs.map Run.label) ?_ ?_ ?_ (s.step _)
    (s.taken_outcome hn) later
  · intro r c _ h
    rw [runs_run, List.map_append, map_label_freed]
    exact List.mem_append_left _ h
  · intro r key _ h
    rw [runs_cancel, map_label_freed]
    exact h
  · intro r r' _ h hw
    exact hw.taken h

theorem answer_of_asked (service : Service) (h : Asked events n) :
    (((start service).after events).step (.outcome n)).2 = .outcome none := by
  have s : Sound ((start service).after events) := (Sound.start service).after events
  obtain ⟨x, hx, hlabel⟩ := List.mem_map.mp (taken_of_asked service h)
  have hid : x.id = n := congrArg Prod.fst hlabel
  have ht : x.taken = true := congrArg Prod.snd hlabel
  obtain ⟨y, hy, hyid, hfind⟩ := s.exists_find? (s.lt_length hx)
  rw [s.eq_of_id hy hx hyid, hid] at hfind
  simp only [step, outcome, hfind, ht]
  rfl

theorem exists_resolved (service : Service) {c : Command} (hc : (created events)[n]? = some c)
    (hfirst : ¬ Asked events n) :
    ∃ run ∈ ((start service).after (events ++ [.outcome n])).runs,
      run.origin = (n, c.range.first, c) ∧ run.isLive = false ∧
      (run.phase = .aborted ↔ Withdrawn service events n) ∧
      (((start service).after events).step (.outcome n)).2 = .outcome run.outcome? := by
  obtain ⟨hn, _⟩ := List.getElem?_eq_some_iff.mp hc
  obtain ⟨run, hrun, rfl, hover, hanswer⟩ := answer_of_first service hn hfirst []
  have hcreated : created (events ++ [.outcome run.id]) = created events := by
    rw [created_concat]
    exact List.append_nil _
  refine ⟨run, hrun, origin_of_created hrun (hcreated ▸ hc), hover, ?_, hanswer⟩
  rw [aborted_iff_withdrawn hrun, withdrawn_concat]
  simp [Withdraws, Event.withdraws]

theorem answer_of_over {x : Run} (hx : x ∈ ((start service).after events).runs)
    (hover : x.isLive = false) {more : List Event} (hfirst : ¬ Asked (events ++ more) x.id) :
    ((((start service).after events).after more).step (.outcome x.id)).2 =
      .outcome x.outcome? := by
  have s : Sound ((start service).after events) := (Sound.start service).after events
  have hlt : x.id < (created (events ++ more)).length := by
    rw [created_append, List.length_append, ← length_runs_after service]
    exact Nat.lt_add_right _ (s.lt_length hx)
  obtain ⟨y, hy, hid, _, hanswer⟩ := answer_of_first service hlt hfirst []
  obtain ⟨z, hz, horigin, hphase⟩ :=
    Keeps.after ⟨x, hx, rfl, rfl⟩ hover (.after service events) s (more ++ [.outcome x.id])
  rw [← after_append, ← List.append_assoc] at hz
  have hyz : y = z := ((Sound.start service).after _).eq_of_id hy hz
    (hid.trans (congrArg Prod.fst horigin).symm)
  rw [← after_append, hanswer, hyz, Run.outcome?_eq horigin hphase]

/-- Every run comes to one outcome. The first to ask for it gets it: that the run was cancelled, if
it was withdrawn while it was live, and what its command came to after those of the older runs, if
not. Nobody gets it again. -/
theorem outcome_exactly_once (service : Service) (events : List Event) :
    let r := (start service).after events
    (∀ n c, (created events)[n]? = some c → ¬ Asked events n →
      let r' := (r.step (.outcome n)).1
      let answer := (r.step (.outcome n)).2
      (∃ run ∈ r'.runs, run.origin = (n, c.range.first, c) ∧ run.isLive = false) ∧
        (∀ line, answer = .outcome (some (.result (.error (.cancelled line)))) ↔
          Withdrawn service events n ∧ line = c.range.first + 1) ∧
        (¬ Withdrawn service events n →
          answer = .outcome (some ((service.after (r'.finishedBefore n)).execute c).2))) ∧
      (∀ n, Asked events n → (r.step (.outcome n)).2 = .outcome none) ∧
      (∀ run ∈ r.runs, run.isLive = false → ∀ more, ¬ Asked (events ++ more) run.id →
        ((r.after more).step (.outcome run.id)).2 = .outcome run.outcome?) ∧
      (∀ key, (r.step (.cancel key)).1.bench.service = r.bench.service) ∧
      ∀ c, (r.step (.run c)).1.bench.service = r.bench.service := by
  intro r
  refine ⟨?_, fun n => answer_of_asked service, ?_, r.service_cancel, r.service_run⟩
  · intro n c hc hfirst r' answer
    obtain ⟨run, hrun, horigin, hover, haborted, hanswer⟩ := exists_resolved service hc hfirst
    have hid : run.id = n := congrArg Prod.fst horigin
    have hkey : run.key = c.range.first := congrArg (fun o => o.2.1) horigin
    have hcommand : run.command = c := congrArg (fun o => o.2.2) horigin
    have hafter : (start service).after (events ++ [.outcome n]) = r' := after_concat ..
    have hanswer : answer = .outcome run.outcome? := hanswer
    rw [hanswer]
    refine ⟨⟨run, hafter ▸ hrun, horigin, hover⟩, ?_⟩
    cases hp : run.phase with
    | waiting | started => simp [Run.isLive, hp, Phase.isLive] at hover
    | aborted =>
        have hwithdrawn := haborted.mp hp
        refine ⟨?_, fun h => absurd hwithdrawn h⟩
        intro line
        simp [Run.outcome?, hp, hkey, hwithdrawn, eq_comm]
    | finished o =>
        have hkept : ¬ Withdrawn service events n := by
          rw [← haborted, hp]
          simp
        have hexecute := eq_execute_of_finished hrun hp
        rw [hid, hcommand, hafter] at hexecute
        rw [Run.outcome?, hp, hexecute]
        refine ⟨?_, fun _ => rfl⟩
        intro line
        simp [Service.execute_ne_cancelled, hkept]
  · intro run hrun hover more hfirst
    exact answer_of_over hrun hover hfirst

theorem outcome_exactly_once_superseded :
    let service := Service.memory (Store.create {} "q") 5
    let c : Command := { Command.bare .send "q" with body := some (.ofNat 7) }
    let events : List Event := [.run c, .poll, .run c, .advance 5, .cancel 0]
    let r := (start service).after events
    (r.step (.outcome 0)).2 = .outcome (some (.result (.error (.cancelled 1)))) ∧
      (r.step (.outcome 1)).2 = .outcome (some (.result (.ok (.sent "msg-1")))) ∧
      ((r.after [.outcome 0]).step (.outcome 0)).2 = .outcome none := by
  intro service c events r
  have hfirst (n : Nat) : ¬ Asked events n := by
    rintro ⟨before, later, h, _⟩
    have hmem : .outcome n ∈ events := h ▸ by simp
    simp [events] at hmem
  have hwithdrawn : Withdrawn service events 0 :=
    ⟨[.run c, .poll], .run c, [.advance 5, .cancel 0], rfl, _, List.mem_cons_self .., rfl, rfl, rfl⟩
  have hkept : ¬ Withdrawn service events 1 := by
    obtain ⟨x, hx, hid, hphase⟩ : ∃ x ∈ r.runs, x.id = 1 ∧ x.phase ≠ .aborted :=
      ⟨_, List.mem_cons_of_mem _ (List.mem_cons_self ..), rfl, nofun⟩
    rw [← hid, ← aborted_iff_withdrawn hx]
    exact hphase
  have hasked : Asked (events ++ [.outcome 0]) 0 := ⟨events, [], rfl, by decide⟩
  obtain ⟨hanswers, _⟩ := outcome_exactly_once service events
  obtain ⟨_, hempty, _⟩ := outcome_exactly_once service (events ++ [.outcome 0])
  refine ⟨?_, ?_, ?_⟩
  · obtain ⟨_, hcancelled, _⟩ := hanswers 0 c rfl (hfirst 0)
    exact (hcancelled 1).mpr ⟨hwithdrawn, rfl⟩
  · obtain ⟨_, _, hexecuted⟩ := hanswers 1 c rfl (hfirst 1)
    have halone : (r.step (.outcome 1)).1.finishedBefore 1 = [] :=
      List.isEmpty_iff.mp (by decide +kernel)
    have hsent : ((Store.create {} "q").execute c).2 = .ok (.sent "msg-1") := by decide
    rw [hexecuted hkept, halone]
    exact congrArg (fun x => Answer.outcome (some (.result x))) hsent
  · rw [← after_append]
    exact hempty 0 hasked

end Runner

end QueueScript
