import QueueScript.Proofs.Runner.Outcome
import QueueScript.Proofs.Script.Extent
/-!
Runs against executions: a store that runs have worked on is as if the finished ones had been
executed one after the other, in the order of their creation.
-/

namespace QueueScript

namespace Log

def Entry.isCall (e : Entry) : Bool := "In-memory call to ".toList.isPrefixOf e.text.toList

theorem isCall_called (i : Invocation) : (called i).isCall = true := by
  unfold called Entry.isCall
  simp only [String.toList_append, List.append_assoc]
  exact List.isPrefixOf_iff_prefix.mpr (List.prefix_append _ _)

theorem isCall_running (c : Command) (context : Context) : (running c context).isCall = false := by
  unfold running Entry.isCall
  simp only [String.toList_append, List.append_assoc]
  rfl

theorem isCall_superseding (level : Level) (line : String) :
    Entry.isCall ⟨level, "Superseding run for line " ++ line⟩ = false := by
  rw [Entry.isCall, String.toList_append]
  rfl

def calls (c : Command) : List Entry := (ofExecute c).filter Entry.isCall

theorem calls_of_error {c : Command} {e : MissingBody} (h : Invocation.ofCommand c = .error e) :
    calls c = [] := by
  rw [calls, ofExecute, h]
  rfl

theorem calls_of_ok {c : Command} {i : Invocation} (h : Invocation.ofCommand c = .ok i) :
    calls c = [called i] := by
  simp [calls, ofExecute, h, isCall_called, isCall_running]

end Log

namespace Bench

theorem service_deregister (b : Bench) (run : Run) : (b.deregister run).service = b.service := by
  rw [deregister]
  split <;> rfl

theorem log_deregister (b : Bench) (run : Run) : (b.deregister run).log = b.log := by
  rw [deregister]
  split <;> rfl

theorem call_eq_execute {b : Bench} {s : Store} {latency : Nat} {run : Run} {i : Invocation}
    (hs : b.service = .memory s latency) (maps : Invocation.ofCommand run.command = .ok i) :
    (b.call run i).1.service = .memory (s.execute run.command).1 latency ∧
      (b.call run i).1.log = b.log ++ [Log.called i] ∧
      (b.call run i).2 = { run with phase := .finished (.result (s.execute run.command).2) } := by
  rw [s.execute_of_ok maps]
  simp only [call, hs, finish, service_deregister, log_deregister, tell, and_self]

end Bench

def Run.ending? (run : Run) : Option (Command × Outcome) :=
  match run.phase with
  | .finished o => some (run.command, o)
  | _ => none

theorem Run.ending?_of_live {run : Run} (h : run.isLive = true) : run.ending? = none := by
  cases hp : run.phase with
  | waiting | started | aborted => rw [ending?, hp]
  | finished => simp [isLive, hp, Phase.isLive] at h

/-- Some endings are those of a sequence of executions, and so is what became of the bench. -/
structure Sequential (store : Store) (latency : Nat) (b : Bench)
    (ends : List (Command × Outcome)) : Prop where
  service : b.service = .memory (store.executeAll (ends.map Prod.fst)).1 latency
  results : ends.map Prod.snd = (store.executeAll (ends.map Prod.fst)).2.map .result
  calls : b.log.filter Log.Entry.isCall = ends.flatMap (fun e => Log.calls e.1)

theorem Sequential.of_quiet {store : Store} {latency : Nat} {b b' : Bench}
    {ends : List (Command × Outcome)} (h : Sequential store latency b ends)
    (hservice : b'.service = b.service)
    (hlog : b'.log.filter Log.Entry.isCall = b.log.filter Log.Entry.isCall) :
    Sequential store latency b' ends :=
  ⟨hservice.trans h.service, h.results, hlog.trans h.calls⟩

theorem Sequential.insert {store s : Store} {latency : Nat} {b b' : Bench}
    {front back : List (Command × Outcome)} {c : Command}
    (h : Sequential store latency b (front ++ back))
    (hback : ∀ p ∈ back, ∃ e, Invocation.ofCommand p.1 = .error e)
    (hs : b.service = .memory s latency) (hservice : b'.service = .memory (s.execute c).1 latency)
    (hlog : b'.log.filter Log.Entry.isCall = b.log.filter Log.Entry.isCall ++ Log.calls c) :
    Sequential store latency b' (front ++ (c, .result (s.execute c).2) :: back) := by
  have herrors : ∀ d ∈ back.map Prod.fst, ∃ e, Invocation.ofCommand d = .error e := by
    intro d hd
    obtain ⟨p, hp, rfl⟩ := List.mem_map.mp hd
    exact hback p hp
  have hcalls : back.flatMap (fun e => Log.calls e.1) = [] := by
    refine List.flatMap_eq_nil_iff.mpr ?_
    intro p hp
    obtain ⟨e, he⟩ := hback p hp
    exact Log.calls_of_error he
  have hbefore := store.executeAll_append_of_errors (front.map Prod.fst) herrors
  have hafter : store.executeAll (front.map Prod.fst ++ c :: back.map Prod.fst) =
      ((s.execute c).1, (store.executeAll (front.map Prod.fst)).2 ++
        (s.execute c).2 :: (store.executeAll (back.map Prod.fst)).2) := by
    have hstore : (store.executeAll (front.map Prod.fst)).1 = s := by
      have hservice := h.service
      rw [List.map_append, hbefore, hs] at hservice
      exact (Service.memory.inj hservice).1.symm
    rw [Store.executeAll_append, Store.executeAll_cons, hstore,
      Store.executeAll_of_errors herrors _ store]
  have hresults := h.results
  rw [List.map_append, List.map_append, hbefore, List.map_append] at hresults
  obtain ⟨hfront, hend⟩ := List.append_inj hresults (by
    rw [List.length_map, List.length_map, Store.length_executeAll, List.length_map])
  refine ⟨?_, ?_, ?_⟩
  · rw [List.map_append, List.map_cons, hafter, hservice]
  · rw [List.map_append, List.map_append, List.map_cons, List.map_cons, hafter, List.map_append,
      List.map_cons, hfront, hend]
  · rw [hlog, h.calls, List.flatMap_append, List.flatMap_append, List.flatMap_cons, hcalls,
      List.append_nil, List.append_nil]

namespace Runner

def endings (r : Runner) : List (Command × Outcome) := r.runs.filterMap Run.ending?

theorem endings_split {b : Bench} {pre post : List Run} {run : Run} {now : Nat}
    (h : run.ending? = none) : endings ⟨b, pre ++ run :: post, now⟩ =
      pre.filterMap Run.ending? ++ post.filterMap Run.ending? := by
  rw [endings, List.filterMap_append, List.filterMap_cons_none h]

theorem endings_finish {b : Bench} {pre post : List Run} {run : Run} {o : Outcome} {now : Nat} :
    endings ⟨b, pre ++ { run with phase := .finished o } :: post, now⟩ =
      pre.filterMap Run.ending? ++ (run.command, o) :: post.filterMap Run.ending? := by
  rw [endings, List.filterMap_append]
  rfl

def Serial (store : Store) (latency : Nat) (r : Runner) : Prop :=
  Sequential store latency r.bench r.endings

theorem Timed.not_called {b : Bench} {pre post : List Run} {run : Run} {now : Nat}
    (t : Timed ⟨b, pre ++ run :: post, now⟩) (hlive : run.isLive = true) {x : Run}
    (hx : x ∈ post) : ¬ x.Called := by
  have hahead : run.Ahead x :=
    (List.pairwise_cons.mp (List.pairwise_append.mp t.order).2.1).1 x hx
  cases hp : run.phase with
  | waiting => rcases hahead.waiting hp with h | h <;> simp [Run.Called, h]
  | started i d => exact (hahead.started i d hp).1
  | finished | aborted => simp [Run.isLive, hp, Phase.isLive] at hlive

namespace Serial

variable {store : Store} {latency : Nat} {r r' : Runner}

theorem finish {b b' : Bench} {pre post : List Run} {run : Run} {now : Nat} {s : Store}
    (h : Serial store latency ⟨b, pre ++ run :: post, now⟩)
    (t : Timed ⟨b, pre ++ run :: post, now⟩) (hlive : run.isLive = true)
    (hs : b.service = .memory s latency)
    (hservice : b'.service = .memory (s.execute run.command).1 latency)
    (hlog : b'.log.filter Log.Entry.isCall =
      b.log.filter Log.Entry.isCall ++ Log.calls run.command) :
    Serial store latency ⟨b', pre ++
      { run with phase := .finished (.result (s.execute run.command).2) } :: post, now⟩ := by
  -- A newer run that has finished before this one has made no call, so the store never saw it.
  have hback : ∀ p ∈ post.filterMap Run.ending?, ∃ e, Invocation.ofCommand p.1 = .error e := by
    intro p hp
    obtain ⟨x, hx, hending⟩ := List.mem_filterMap.mp hp
    have hcalled := t.not_called hlive hx
    cases hphase : x.phase with
    | finished o =>
        obtain rfl : (x.command, o) = p := by simpa [Run.ending?, hphase] using hending
        cases hi : Invocation.ofCommand x.command with
        | error e => exact ⟨e, rfl⟩
        | ok i => exact absurd ⟨⟨o, hphase⟩, i, hi⟩ hcalled
    | waiting | started | aborted => simp [Run.ending?, hphase] at hending
  rw [Serial, endings_split (Run.ending?_of_live hlive)] at h
  rw [Serial, endings_finish]
  exact h.insert hback hs hservice hlog

theorem work (h : Serial store latency r) (t : Timed r) (hw : Work r r') :
    Serial store latency r' := by
  obtain ⟨s, hs⟩ : ∃ s, r.bench.service = .memory s latency := ⟨_, h.service⟩
  cases hw with
  | @begin b pre post run i now waits =>
      have hnone : run.ending? = none := by rw [Run.ending?, waits]
      rw [Serial, endings_split hnone] at h
      rw [Serial, endings_split rfl]
      exact h.of_quiet rfl (by simp [Bench.tell, Log.isCall_running])
  | @refuse b pre post run e now waits turn fails =>
      have hexecute := s.execute_of_error fails
      have hservice : (b.deregister run).service = .memory (s.execute run.command).1 latency := by
        rw [b.service_deregister, hexecute]
        exact hs
      have hlog : (b.deregister run).log.filter Log.Entry.isCall =
          b.log.filter Log.Entry.isCall ++ Log.calls run.command := by
        rw [b.log_deregister, Log.calls_of_error fails, List.append_nil]
      have hfinish := h.finish t (Run.isLive_of_waiting waits) hs hservice hlog
      rw [hexecute] at hfinish
      exact hfinish
  | @callAtOnce b pre post run i now waits turn maps =>
      obtain ⟨hservice, hlog, hrun⟩ :=
        Bench.call_eq_execute (b := b.tell (Log.running run.command i.context)) hs maps
      rw [hrun]
      refine h.finish t (Run.isLive_of_waiting waits) hs hservice ?_
      rw [hlog, Log.calls_of_ok maps]
      simp [Bench.tell, Log.isCall_running, Log.isCall_called]
  | @callDue b pre post run i now deadline started =>
      have maps := (t.due run (by simp) i deadline started).1
      obtain ⟨hservice, hlog, hrun⟩ := Bench.call_eq_execute hs maps
      rw [hrun]
      refine h.finish t (Run.isLive_of_started started) hs hservice ?_
      rw [hlog, Log.calls_of_ok maps, List.filter_append]
      simp [Log.isCall_called]
  | tick => exact h
  | @take b runs now id =>
      have hsame : endings ⟨b, runs.map (fun run => if run.id = id then { run with taken := true }
          else run), now⟩ = endings ⟨b, runs, now⟩ := by
        simp only [endings, List.filterMap_map]
        refine List.filterMap_congr ?_
        intro x _
        simp only [Function.comp_apply]
        split <;> rfl
      rw [Serial, hsame]
      exact h

end Serial

theorem Registered.filterMap_ending?_freed {r : Runner} (h : Registered r) (s : Sound r)
    (key : Nat) : (r.freed key).filterMap Run.ending? = r.endings := by
  rw [freed, endings]
  split
  · rename_i id hk
    obtain ⟨y, hy, hid, _, hlive⟩ := h.lookup_iff.mp hk
    rw [List.filterMap_map]
    refine List.filterMap_congr ?_
    intro x hx
    simp only [Function.comp_apply]
    split
    · rename_i hxid
      rw [s.eq_of_id hx hy (hxid.trans hid.symm), Run.ending?_of_live hlive]
      rfl
    · rfl
  · rfl

theorem filter_log_run (r : Runner) (c : Command) :
    (r.run c).1.bench.log.filter Log.Entry.isCall = r.bench.log.filter Log.Entry.isCall := by
  simp only [run]
  split
  · simp [Bench.tell, Log.isCall_superseding]
  · rfl

theorem log_cancel (r : Runner) (key : Nat) : (r.cancel key).1.bench.log = r.bench.log := by
  rw [cancel]
  split <;> rfl

theorem serial_after (store : Store) (latency : Nat) (events : List Event) :
    Serial store latency ((start (.memory store latency)).after events) := by
  have hstart : Serial store latency (start (.memory store latency)) := ⟨rfl, rfl, rfl⟩
  refine (after_invariant (P := fun r => Registered r ∧ Serial store latency r) ?_ ?_ ?_
    (Sound.start _) ⟨Registered.start _, hstart⟩ events).2
  · rintro r c s ⟨h, hserial⟩
    have hends : (r.run c).1.endings = r.endings := by
      rw [endings, runs_run, List.filterMap_append, h.filterMap_ending?_freed s]
      exact List.append_nil _
    refine ⟨h.run c, ?_⟩
    rw [Serial, hends]
    exact hserial.of_quiet (r.service_run c) (r.filter_log_run c)
  · rintro r key s ⟨h, hserial⟩
    have hends : (r.cancel key).1.endings = r.endings := by
      rw [endings, runs_cancel, h.filterMap_ending?_freed s]
    refine ⟨h.cancel key, ?_⟩
    rw [Serial, hends]
    exact hserial.of_quiet (r.service_cancel key) (congrArg _ (r.log_cancel key))
  · rintro r r' s ⟨h, hserial⟩ hw
    exact ⟨h.work hw, hserial.work s.timed hw⟩

theorem not_aborted (service : Service) {events : List Event}
    (hkeys : ((created events).map (fun c => c.range.first)).Nodup)
    (hcancel : ∀ key, .cancel key ∉ events) :
    ∀ x ∈ ((start service).after events).runs, x.phase ≠ .aborted := by
  induction events using List.reverseRecOn with
  | nil => simp [after, start]
  | append_singleton events e ih =>
      have s : Sound ((start service).after events) := (Sound.start service).after events
      have h : Registered ((start service).after events) := .after service events
      rw [created_concat, List.map_append, List.nodup_append] at hkeys
      obtain ⟨hkeys, _, hapart⟩ := hkeys
      have ih := ih hkeys (fun key hk => hcancel key (List.mem_append_left _ hk))
      rw [after_concat]
      rcases step_cases s e with ⟨c, rfl, hstep⟩ | ⟨key, rfl, _⟩ | ⟨_, hworks⟩
      · have hfree : Table.lookup c.range.first ((start service).after events).bench.registry =
            none := by
          refine Option.eq_none_iff_forall_ne_some.mpr fun n hn => ?_
          obtain ⟨x, hx, _, hkey, _⟩ := h.lookup_iff.mp hn
          exact hapart x.key (key_mem_created hx) c.range.first (List.mem_singleton_self _) hkey
        rw [hstep, runs_run, freed, hfree]
        intro x hx
        rcases List.mem_append.mp hx with hx | hx
        · exact ih x hx
        · rw [List.mem_singleton.mp hx]
          simp
      · exact absurd (List.mem_append_right _ (List.mem_singleton_self _)) (hcancel key)
      · intro y hy
        obtain ⟨x, hx, hleads⟩ := exists_of_mem_right hworks.leads hy
        exact hleads.phase.ne_aborted (ih x hx)

theorem map_of_finished {runs : List Run} (h : ∀ x ∈ runs, ∃ o, x.phase = .finished o) :
    (runs.filterMap Run.ending?).map Prod.fst = runs.map Run.command ∧
      runs.map Run.outcome? = ((runs.filterMap Run.ending?).map Prod.snd).map some := by
  induction runs with
  | nil => exact ⟨rfl, rfl⟩
  | cons x runs ih =>
      obtain ⟨o, ho⟩ := h x (List.mem_cons_self ..)
      obtain ⟨hcommands, houtcomes⟩ := ih (fun y hy => h y (List.mem_cons_of_mem _ hy))
      have hending : x.ending? = some (x.command, o) := by rw [Run.ending?, ho]
      rw [List.filterMap_cons_some hending]
      simp only [List.map_cons, hcommands, houtcomes, Run.outcome?, ho, and_self]

theorem nodup_first_parse (d : Script.Defaults) (text : String) :
    ((Script.parse d text).map (fun c => c.range.first)).Nodup := by
  rw [List.Nodup, List.pairwise_map]
  refine (Script.State.pairwise_scan d 0 _ (by simp [Script.State.opened])).imp_of_mem ?_
  intro a b ha _ hlt heq
  obtain ⟨_, _, _, m, _, _, hlast, _⟩ := Script.exists_block_of_mem ha
  omega

/-- Runs are serializable: a store and its runs' outcomes are those of executing, one after the
other in the order of creation, the commands whose runs have finished, and nothing else was called.
The first to ask for an outcome gets it. The runs of a document thus come to what its execution
does. -/
theorem runs_serializable (store : Store) (latency : Nat) (events : List Event) :
    let fresh := start (.memory store latency)
    let r := fresh.after events
    let sequential := store.executeAll (r.endings.map Prod.fst)
    r.runs.map Run.origin = (created events).mapIdx (fun n c => (n, c.range.first, c)) ∧
      r.bench.service = .memory sequential.1 latency ∧
      r.endings.map Prod.snd = sequential.2.map .result ∧
      r.bench.log.filter Log.Entry.isCall = r.endings.flatMap (fun e => Log.calls e.1) ∧
      (∀ before n later, events = before ++ .outcome n :: later → n < (created before).length →
        ¬ Asked before n → ∃ run ∈ r.runs, run.id = n ∧ run.isLive = false ∧
          ((fresh.after before).step (.outcome n)).2 = .outcome run.outcome?) ∧
      ∀ d text, created events = Script.parse d text → (∀ key, .cancel key ∉ events) →
        (∀ n < (Script.parse d text).length, Asked events n) →
        r.bench.service = .memory (store.executeAll (Script.parse d text)).1 latency ∧
          r.runs.map Run.outcome? =
            (store.executeAll (Script.parse d text)).2.map (fun x => some (.result x)) := by
  intro fresh r sequential
  have h : Serial store latency r := serial_after store latency events
  have s : Sound r := (Sound.start _).after events
  refine ⟨map_origin_after _ events, h.service, h.results, h.calls, ?_, ?_⟩
  · rintro before n later hevents hid hfirst
    have hanswer := answer_of_first (.memory store latency) hid hfirst later
    rw [← hevents] at hanswer
    exact hanswer
  · intro d text hcreated hcancel hasked
    have hfinished : ∀ x ∈ r.runs, ∃ o, x.phase = .finished o := by
      intro x hx
      have hid := s.lt_length hx
      rw [length_runs_after, hcreated] at hid
      have hover := not_live_of_asked hx (hasked x.id hid)
      have hwhole := not_aborted _ (hcreated ▸ nodup_first_parse d text) hcancel x hx
      cases hp : x.phase with
      | waiting | started => simp [Run.isLive, hp, Phase.isLive] at hover
      | finished o => exact ⟨o, rfl⟩
      | aborted => exact absurd hp hwhole
    obtain ⟨hcommands, houtcomes⟩ := map_of_finished hfinished
    have hall : r.endings.map Prod.fst = Script.parse d text := by
      rw [← hcreated, ← map_command_after (.memory store latency) events]
      exact hcommands
    refine ⟨hall ▸ h.service, ?_⟩
    rw [houtcomes, ← hall]
    exact (congrArg (List.map some) h.results).trans List.map_map

theorem runs_serializable_out_of_turn :
    let store := Store.create {} "q"
    let cs := Script.parse ⟨"p", "eu"⟩ "SEND q\n\x7b\x7d\n\nRECEIVE q\n"
    let fresh := start (.memory store 5)
    let r := fresh.after (cs.map .run ++ [.outcome 1, .outcome 0])
    let results : List (Except ExecuteError Response) :=
      [.ok (.sent "msg-1"), .ok (.received [⟨"msg-1", "msg-1-r1", "\x7b\x7d"⟩])]
    (store.executeAll cs).2 = results ∧
      r.bench.service = .memory (store.executeAll cs).1 5 ∧
      r.runs.map Run.outcome? = results.map (fun x => some (.result x)) ∧
      ∃ run ∈ r.runs, run.id = 1 ∧
        ((fresh.after (cs.map .run)).step (.outcome 1)).2 = .outcome run.outcome? := by
  intro store cs fresh r results
  have hresults : (store.executeAll cs).2 = results := by decide
  have hlength : cs.length = 2 := by decide
  have hcreated : created (cs.map .run) = cs := by
    rw [created, List.filterMap_map]
    exact List.filterMap_some
  have hfirst : ¬ Asked (cs.map .run) 1 := by
    rintro ⟨before, later, h, _⟩
    have hmem : Event.outcome 1 ∈ cs.map Event.run := h ▸ by simp
    simp at hmem
  have hasked : ∀ n < cs.length, Asked (cs.map .run ++ [.outcome 1, .outcome 0]) n := by
    intro n hn
    have hn : n = 0 ∨ n = 1 := by omega
    rcases hn with rfl | rfl
    · refine ⟨cs.map .run ++ [.outcome 1], [], by simp, ?_⟩
      rw [created_append, hcreated, List.length_append]
      omega
    · refine ⟨cs.map .run, [.outcome 0], rfl, ?_⟩
      simp [hcreated, hlength]
  obtain ⟨_, _, _, _, hanswers, hdocument⟩ :=
    runs_serializable store 5 (cs.map .run ++ [.outcome 1, .outcome 0])
  obtain ⟨hservice, houtcomes⟩ := hdocument ⟨"p", "eu"⟩ "SEND q\n\x7b\x7d\n\nRECEIVE q\n"
    (by rw [created_append, hcreated]; exact List.append_nil cs) (by simp) hasked
  obtain ⟨run, hrun, hid, _, hanswer⟩ :=
    hanswers (cs.map .run) 1 [.outcome 0] rfl (by simp [hcreated, hlength]) hfirst
  have hr : (start (.memory store 5)).after (cs.map .run ++ [.outcome 1, .outcome 0]) = r := rfl
  rw [hr] at hservice houtcomes hrun
  rw [← hresults]
  exact ⟨rfl, hservice, houtcomes, run, hrun, hid, hanswer⟩

end Runner

end QueueScript
