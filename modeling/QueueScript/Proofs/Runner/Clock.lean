import Mathlib.Data.List.Induction
import Mathlib.Data.List.Nodup
import QueueScript.Proofs.Runner.Work

namespace QueueScript

def Run.Called (run : Run) : Prop :=
  (∃ o, run.phase = .finished o) ∧ ∃ i, Invocation.ofCommand run.command = .ok i

structure Run.Ahead (a b : Run) : Prop where
  waiting : a.phase = .waiting → b.phase = .waiting ∨ b.phase = .aborted
  started : ∀ i d, a.phase = .started i d →
    ¬ b.Called ∧ ∀ j e, b.phase = .started j e → d ≤ e

theorem Run.Ahead.of_not_live {a b : Run} (h : a.isLive = false) : a.Ahead b := by
  constructor
  · intro hw
    simp [Run.isLive, hw, Phase.isLive] at h
  · intro i d hs
    simp [Run.isLive, hs, Phase.isLive] at h

theorem Run.Ahead.of_change {a b a' b' : Run} (h : a.Ahead b) (hcommand : b'.command = b.command)
    (ha : a'.phase = a.phase ∨ a'.phase = .aborted)
    (hb : b'.phase = b.phase ∨ b'.phase = .aborted) : a'.Ahead b' := by
  rcases ha with ha | ha
  · rcases hb with hb | hb
    · exact ⟨ha ▸ hb ▸ h.waiting, by simpa only [ha, hb, Run.Called, hcommand] using h.started⟩
    · exact ⟨fun _ => .inr hb, by simp [Run.Called, hb]⟩
  · exact .of_not_live (by rw [Run.isLive, ha, Phase.isLive])

theorem pairwise_replace {R : Run → Run → Prop} {pre post : List Run} {x y : Run}
    (h : (pre ++ x :: post).Pairwise R) (hpre : ∀ a ∈ pre, R a x → R a y)
    (hpost : ∀ b ∈ post, R x b → R y b) : (pre ++ y :: post).Pairwise R := by
  obtain ⟨hp, hx, hall⟩ := List.pairwise_append.mp h
  obtain ⟨hxb, hpost'⟩ := List.pairwise_cons.mp hx
  refine List.pairwise_append.mpr ⟨hp, List.pairwise_cons.mpr ⟨?_, hpost'⟩, ?_⟩
  · intro b hb
    exact hpost b hb (hxb b hb)
  · intro a ha b hb
    rcases List.mem_cons.mp hb with rfl | hb
    · exact hpre a ha (hall a ha x (List.mem_cons_self ..))
    · exact hall a ha b (List.mem_cons_of_mem _ hb)

namespace Runner

def freed (r : Runner) (key : Nat) : List Run :=
  match Table.lookup key r.bench.registry with
  | some id => r.runs.map (fun run => if run.id = id then { run with phase := .aborted } else run)
  | none => r.runs

theorem runs_run (r : Runner) (c : Command) :
    (r.run c).1.runs =
      r.freed c.range.first ++ [⟨r.runs.length, c.range.first, c, .waiting, false⟩] := by
  simp only [run, freed]
  cases Table.lookup c.range.first r.bench.registry <;> rfl

theorem registry_run (r : Runner) (c : Command) :
    (r.run c).1.bench.registry = Table.insert c.range.first r.runs.length r.bench.registry := by
  simp only [run]
  split <;> rfl

theorem service_run (r : Runner) (c : Command) : (r.run c).1.bench.service = r.bench.service := by
  simp only [run]
  split <;> rfl

theorem now_run (r : Runner) (c : Command) : (r.run c).1.now = r.now := by
  simp only [run]
  split <;> rfl

theorem wait_run (r : Runner) (c : Command) : (r.run c).1.bench.wait = r.bench.wait := by
  rw [Bench.wait, service_run, Bench.wait]

theorem runs_cancel (r : Runner) (key : Nat) : (r.cancel key).1.runs = r.freed key := by
  simp only [cancel, freed]
  cases Table.lookup key r.bench.registry <;> rfl

theorem now_cancel (r : Runner) (key : Nat) : (r.cancel key).1.now = r.now := by
  simp only [cancel]
  split <;> rfl

theorem service_cancel (r : Runner) (key : Nat) :
    (r.cancel key).1.bench.service = r.bench.service := by
  simp only [cancel]
  split <;> rfl

theorem wait_cancel (r : Runner) (key : Nat) : (r.cancel key).1.bench.wait = r.bench.wait := by
  rw [Bench.wait, service_cancel, Bench.wait]

/-- Runs that have started are due after now, in the order of their creation. -/
structure Timed (r : Runner) : Prop where
  due : ∀ x ∈ r.runs, ∀ i d, x.phase = .started i d →
    Invocation.ofCommand x.command = .ok i ∧ r.now < d ∧ d ≤ r.now + r.bench.wait
  order : r.runs.Pairwise Run.Ahead

namespace Timed

variable {r r' : Runner}

theorem finish {b b' : Bench} {pre post : List Run} {run : Run} {o : Outcome} {now : Nat}
    (t : Timed ⟨b, pre ++ run :: post, now⟩) (hwait : b'.wait = b.wait)
    (hpre : ∀ x ∈ pre, x.isLive = true → (∃ i d, x.phase = .started i d) ∧
      ∃ e, Invocation.ofCommand run.command = .error e) :
    Timed ⟨b', pre ++ { run with phase := .finished o } :: post, now⟩ := by
  constructor
  · intro x hx i d hs
    rcases List.mem_append.mp hx with hx | hx
    · rw [hwait]
      exact t.due x (List.mem_append_left _ hx) i d hs
    · rcases List.mem_cons.mp hx with rfl | hx
      · cases hs
      · rw [hwait]
        exact t.due x (List.mem_append_right _ (List.mem_cons_of_mem _ hx)) i d hs
  · refine pairwise_replace t.order ?_ ?_
    · intro a ha _
      cases hl : a.isLive with
      | false => exact .of_not_live hl
      | true =>
          obtain ⟨⟨i, d, hs⟩, e, he⟩ := hpre a ha hl
          refine ⟨by simp [hs], ?_⟩
          rintro _ _ _
          refine ⟨?_, by simp⟩
          rintro ⟨_, j, hj⟩
          rw [he] at hj
          cases hj
    · intro b _ _
      exact .of_not_live rfl

theorem begin {b : Bench} {pre post : List Run} {run : Run} {i : Invocation} {e : Log.Entry}
    {now : Nat} (t : Timed ⟨b, pre ++ run :: post, now⟩) (waits : run.phase = .waiting)
    (turn : ∀ x ∈ pre, x.phase ≠ .waiting) (maps : Invocation.ofCommand run.command = .ok i)
    (long : b.wait ≠ 0) :
    Timed ⟨b.tell e, pre ++ { run with phase := .started i (now + b.wait) } :: post, now⟩ := by
  constructor
  · intro x hx j d hs
    rcases List.mem_append.mp hx with hx | hx
    · exact t.due x (List.mem_append_left _ hx) j d hs
    · rcases List.mem_cons.mp hx with rfl | hx
      · cases hs
        exact ⟨maps, Nat.lt_add_of_pos_right (Nat.pos_of_ne_zero long), Nat.le_refl _⟩
      · exact t.due x (List.mem_append_right _ (List.mem_cons_of_mem _ hx)) j d hs
  · refine pairwise_replace t.order ?_ ?_
    · intro a ha _
      refine ⟨fun hw => absurd hw (turn a ha), ?_⟩
      intro j d hs
      refine ⟨by simp [Run.Called], ?_⟩
      rintro _ _ ⟨⟩
      exact (t.due a (List.mem_append_left _ ha) j d hs).2.2
    · intro y _ hy
      have hy := hy.waiting waits
      refine ⟨by simp, ?_⟩
      intro _ _ _
      rcases hy with hy | hy <;> simp [Run.Called, hy]

theorem not_live_of_short {b : Bench} {runs : List Run} {now : Nat} (t : Timed ⟨b, runs, now⟩)
    (short : b.wait = 0) {x : Run} (hx : x ∈ runs) (hw : x.phase ≠ .waiting) :
    x.isLive = false := by
  cases hp : x.phase with
  | waiting => exact absurd hp hw
  | started i d =>
      obtain ⟨_, hlt, hle⟩ := t.due x hx i d hp
      simp only [short] at hlt hle
      omega
  | finished | aborted => rw [Run.isLive, hp, Phase.isLive]

theorem not_live_of_due {b : Bench} {pre post : List Run} {run : Run} {i : Invocation}
    {now deadline : Nat} (t : Timed ⟨b, pre ++ run :: post, now⟩)
    (started : run.phase = .started i deadline)
    (turn : ∀ x ∈ pre, ∀ j d, x.phase = .started j d → deadline < d) {x : Run} (hx : x ∈ pre) :
    x.isLive = false := by
  have hahead : x.Ahead run :=
    (List.pairwise_append.mp t.order).2.2 x hx run (List.mem_cons_self ..)
  cases hp : x.phase with
  | waiting =>
      have hrun := hahead.waiting hp
      simp [started] at hrun
  | started j d =>
      have hle := (hahead.started j d hp).2 i deadline started
      have hlt := turn x hx j d hp
      omega
  | finished | aborted => rw [Run.isLive, hp, Phase.isLive]

theorem map {b b' : Bench} {runs : List Run} {now : Nat} {f : Run → Run}
    (t : Timed ⟨b, runs, now⟩) (hwait : b'.wait = b.wait)
    (hcommand : ∀ x, (f x).command = x.command)
    (hphase : ∀ x, (f x).phase = x.phase ∨ (f x).phase = .aborted) :
    Timed ⟨b', runs.map f, now⟩ := by
  constructor
  · intro x hx i d hs
    obtain ⟨y, hy, rfl⟩ := List.mem_map.mp hx
    rcases hphase y with h | h
    · rw [hcommand, hwait]
      exact t.due y hy i d (h ▸ hs)
    · rw [h] at hs
      cases hs
  · rw [List.pairwise_map]
    exact t.order.imp (fun h => h.of_change (hcommand _) (hphase _) (hphase _))

theorem work (t : Timed r) (h : Work r r') : Timed r' := by
  cases h with
  | begin waits turn maps long => exact t.begin waits turn maps long
  | @refuse b pre post run e now waits turn fails =>
      refine t.finish (b.wait_deregister run) ?_
      intro x hx hl
      refine ⟨?_, e, fails⟩
      cases hp : x.phase with
      | waiting => exact absurd hp (turn x hx)
      | started i d => exact ⟨i, d, rfl⟩
      | finished | aborted => simp [Run.isLive, hp, Phase.isLive] at hl
  | @callAtOnce b pre post run i now waits turn maps short =>
      obtain ⟨o, ho⟩ := (b.tell (Log.running run.command i.context)).exists_call_eq run i
      rw [ho]
      refine t.finish ((b.tell _).wait_call run i) ?_
      intro x hx hl
      rw [t.not_live_of_short short (List.mem_append_left _ hx) (turn x hx)] at hl
      cases hl
  | @callDue b pre post run i now deadline started turn =>
      obtain ⟨o, ho⟩ := b.exists_call_eq run i
      rw [ho]
      refine t.finish (b.wait_call run i) ?_
      intro x hx hl
      rw [t.not_live_of_due started turn hx] at hl
      cases hl
  | @tick b runs now later forward calm =>
      refine ⟨?_, t.order⟩
      intro x hx i d hs
      obtain ⟨hmaps, _, hd⟩ := t.due x hx i d hs
      exact ⟨hmaps, calm x hx i d hs, by simp only at hd ⊢; omega⟩
  | @take b runs now id =>
      refine t.map rfl ?_ ?_
      · intro x
        split <;> rfl
      · intro x
        split <;> exact .inl rfl

theorem works (t : Timed r) (h : Works r r') : Timed r' := by
  induction h with
  | refl => exact t
  | tail _ hwork ih => exact ih.work hwork

theorem freed {b : Bench} (t : Timed r) (key : Nat) (hwait : b.wait = r.bench.wait) :
    Timed ⟨b, r.freed key, r.now⟩ := by
  rw [Runner.freed]
  split
  · refine t.map hwait ?_ ?_
    · intro x
      split <;> rfl
    · intro x
      split
      · exact .inr rfl
      · exact .inl rfl
  · exact ⟨hwait ▸ t.due, t.order⟩

theorem run (t : Timed r) (c : Command) : Timed (r.run c).1 := by
  have hfreed := t.freed (b := (r.run c).1.bench) c.range.first (r.wait_run c)
  constructor
  · intro x hx i d hs
    rw [runs_run, List.mem_append] at hx
    rw [now_run]
    rcases hx with hx | hx
    · exact hfreed.due x hx i d hs
    · rw [List.mem_singleton.mp hx] at hs
      cases hs
  · rw [runs_run, List.pairwise_append]
    refine ⟨hfreed.order, List.pairwise_singleton _ _, ?_⟩
    intro a _ b hb
    rw [List.mem_singleton.mp hb]
    exact ⟨fun _ => .inl rfl, by simp [Run.Called]⟩

theorem cancel (t : Timed r) (key : Nat) : Timed (r.cancel key).1 := by
  have hfreed := t.freed (b := (r.cancel key).1.bench) key (r.wait_cancel key)
  rw [← runs_cancel, ← r.now_cancel key] at hfreed
  exact hfreed

end Timed

structure Sound (r : Runner) : Prop where
  ids : r.runs.map Run.id = List.range r.runs.length
  timed : Timed r
  taken : ∀ x ∈ r.runs, x.taken = true → x.isLive = false

theorem map_id_eq {as bs : List Run} (h : as.map Run.origin = bs.map Run.origin) :
    as.map Run.id = bs.map Run.id := by
  have hid := congrArg (List.map Prod.fst) h
  rw [List.map_map, List.map_map] at hid
  exact hid

theorem length_freed (r : Runner) (key : Nat) : (r.freed key).length = r.runs.length := by
  rw [freed]
  split <;> simp

theorem map_freed {α : Type} {g : Run → α} (h : ∀ x, g { x with phase := .aborted } = g x)
    (r : Runner) (key : Nat) : (r.freed key).map g = r.runs.map g := by
  rw [freed]
  split
  · exact map_map_ite h _ r.runs
  · rfl

theorem map_origin_freed (r : Runner) (key : Nat) :
    (r.freed key).map Run.origin = r.runs.map Run.origin := map_freed (fun _ => rfl) r key

namespace Sound

variable {r r' : Runner}

theorem start (service : Service) : Sound (Runner.start service) :=
  ⟨rfl, ⟨by simp [Runner.start], .nil⟩, by simp [Runner.start]⟩

theorem eq_of_id (s : Sound r) {a b : Run} (ha : a ∈ r.runs) (hb : b ∈ r.runs)
    (h : a.id = b.id) : a = b := by
  have hnodup : (r.runs.map Run.id).Nodup := s.ids ▸ List.nodup_range
  exact List.inj_on_of_nodup_map hnodup ha hb h

theorem works (s : Sound r) (h : Works r r') : Sound r' := by
  have hleads := h.leads
  refine ⟨?_, s.timed.works h, ?_⟩
  · rw [← map_id_eq (map_origin_of_forall₂ (fun _ _ h => h.origin) hleads), s.ids,
      hleads.length_eq]
  · intro x hx ht
    obtain ⟨a, ha, hax⟩ := exists_of_mem_right hleads hx
    rcases hax.taken ht with hta | hlive
    · exact hax.not_live (s.taken a ha hta)
    · exact hlive

theorem taken_freed (s : Sound r) (key : Nat) :
    ∀ x ∈ r.freed key, x.taken = true → x.isLive = false := by
  rw [freed]
  split
  · intro x hx
    obtain ⟨y, hy, rfl⟩ := List.mem_map.mp hx
    split
    · exact fun _ => rfl
    · exact s.taken y hy
  · exact s.taken

theorem run (s : Sound r) (c : Command) : Sound (r.run c).1 := by
  refine ⟨?_, s.timed.run c, ?_⟩
  · rw [runs_run, List.map_append, map_id_eq (r.map_origin_freed _), s.ids, List.length_append,
      length_freed]
    exact List.range_succ.symm
  · rw [runs_run]
    intro x hx
    rcases List.mem_append.mp hx with hx | hx
    · exact s.taken_freed _ x hx
    · rw [List.mem_singleton.mp hx]
      simp

theorem cancel (s : Sound r) (key : Nat) : Sound (r.cancel key).1 := by
  refine ⟨?_, s.timed.cancel key, ?_⟩
  · rw [runs_cancel, map_id_eq (r.map_origin_freed _), s.ids, length_freed]
  · rw [runs_cancel]
    exact s.taken_freed key

theorem await (s : Sound r) (id : Nat) :
    Works r (r.await id) ∧ ∀ x ∈ (r.await id).runs, x.id = id → x.isLive = false := by
  obtain ⟨hpoll, hbegun⟩ := r.poll_works
  have sp := s.works hpoll
  cases hf : r.poll.find? id with
  | none =>
      simp only [Runner.await, hf, Option.map_none]
      refine ⟨hpoll, ?_⟩
      intro x hx hid
      have hnone := List.find?_eq_none.mp hf x hx
      simp [hid] at hnone
  | some run =>
      have hrun : run ∈ r.poll.runs := List.mem_of_find?_eq_some hf
      have hid : run.id = id := by simpa using List.find?_some hf
      cases hp : run.phase with
      | waiting => exact absurd hp (hbegun run hrun)
      | started i d =>
          simp only [Runner.await, hf, Option.map_some, hp]
          have hnow := (sp.timed.due run hrun i d hp).2.1
          obtain ⟨hmove, hcalm⟩ := moveTo_works (Nat.le_of_lt hnow)
          refine ⟨hpoll.trans hmove, ?_⟩
          intro x hx hxid
          obtain ⟨a, ha, hax⟩ := exists_of_mem_right hmove.leads hx
          obtain rfl : a = run := by
            refine sp.eq_of_id ha hrun ?_
            rw [hid, ← hxid]
            exact congrArg Prod.fst hax.origin
          -- The clock stands at the deadline, where no run is left that is due.
          rcases Phase.Leads.of_started (hp ▸ hax.phase) with h | h
          · exact absurd (hcalm x hx i d h) (Nat.lt_irrefl d)
          · exact h
      | finished | aborted =>
          simp only [Runner.await, hf, Option.map_some, hp]
          refine ⟨hpoll, ?_⟩
          intro x hx hxid
          obtain rfl := sp.eq_of_id hx hrun (hxid.trans hid.symm)
          rw [Run.isLive, hp, Phase.isLive]

theorem outcome (s : Sound r) (id : Nat) : Works r (r.outcome id).1 := by
  rw [Runner.outcome]
  split
  · exact .refl
  · split
    · exact .refl
    · obtain ⟨hwork, hover⟩ := s.await id
      exact hwork.tail (.take id hover)

end Sound

def Event.command? : Event → Option Command
  | .run c => some c
  | _ => none

theorem step_cases {r : Runner} (s : Sound r) (e : Event) :
    (∃ c, e = .run c ∧ (r.step e).1 = (r.run c).1) ∨
      (∃ key, e = .cancel key ∧ (r.step e).1 = (r.cancel key).1) ∨
      e.command? = none ∧ Works r (r.step e).1 := by
  cases e with
  | run c => exact .inl ⟨c, rfl, rfl⟩
  | cancel key => exact .inr (.inl ⟨key, rfl, rfl⟩)
  | poll => exact .inr (.inr ⟨rfl, r.poll_works.1⟩)
  | advance time =>
      exact .inr (.inr ⟨rfl, r.poll_works.1.trans (moveTo_works (Nat.le_add_right ..)).1⟩)
  | isRunning key => exact .inr (.inr ⟨rfl, .refl⟩)
  | outcome id => exact .inr (.inr ⟨rfl, s.outcome id⟩)

def after (r : Runner) (events : List Event) : Runner := events.foldl (fun r e => (r.step e).1) r

theorem after_concat (r : Runner) (events : List Event) (e : Event) :
    r.after (events ++ [e]) = ((r.after events).step e).1 := by
  simp only [after, List.foldl_append, List.foldl_cons, List.foldl_nil]

theorem after_append (r : Runner) (events more : List Event) :
    r.after (events ++ more) = (r.after events).after more := List.foldl_append

theorem Sound.step {r : Runner} (s : Sound r) (e : Event) : Sound (r.step e).1 := by
  rcases step_cases s e with ⟨c, _, h⟩ | ⟨key, _, h⟩ | ⟨_, h⟩
  · exact h ▸ s.run c
  · exact h ▸ s.cancel key
  · exact s.works h

theorem Sound.after {r : Runner} (s : Sound r) (events : List Event) : Sound (r.after events) := by
  induction events generalizing r with
  | nil => exact s
  | cons e events ih => exact ih (s.step e)

theorem works_invariant {P : Runner → Prop} (work : ∀ r r', Sound r → P r → Work r r' → P r')
    {r r' : Runner} (s : Sound r) (h : P r) (hworks : Works r r') : P r' := by
  induction hworks with
  | refl => exact h
  | tail hprior hwork ih => exact work _ _ (s.works hprior) ih hwork

theorem after_invariant {P : Runner → Prop} (run : ∀ r c, Sound r → P r → P (r.run c).1)
    (cancel : ∀ r key, Sound r → P r → P (r.cancel key).1)
    (work : ∀ r r', Sound r → P r → Work r r' → P r') {r : Runner} (s : Sound r) (h : P r)
    (events : List Event) : P (r.after events) := by
  induction events generalizing r with
  | nil => exact h
  | cons e events ih =>
      have hstep : P (r.step e).1 := by
        rcases step_cases s e with ⟨c, _, he⟩ | ⟨key, _, he⟩ | ⟨_, he⟩
        · exact he ▸ run r c s h
        · exact he ▸ cancel r key s h
        · exact works_invariant work s h he
      exact ih (s.step e) hstep

def created (events : List Event) : List Command := events.filterMap Event.command?

theorem created_append (events more : List Event) :
    created (events ++ more) = created events ++ created more := List.filterMap_append

theorem created_concat (events : List Event) (e : Event) :
    created (events ++ [e]) = created events ++ e.command?.toList := by
  rw [created_append]
  cases e <;> rfl

theorem map_origin_step {r : Runner} (s : Sound r) (e : Event) :
    (r.step e).1.runs.map Run.origin =
      r.runs.map Run.origin ++
        e.command?.toList.map (fun c => (r.runs.length, c.range.first, c)) := by
  rcases step_cases s e with ⟨c, rfl, h⟩ | ⟨key, rfl, h⟩ | ⟨hnone, h⟩
  · rw [h, runs_run, List.map_append, map_origin_freed]
    rfl
  · rw [h, runs_cancel, map_origin_freed]
    exact (List.append_nil _).symm
  · rw [hnone, ← map_origin_of_forall₂ (fun _ _ h => h.origin) h.leads]
    exact (List.append_nil _).symm

theorem map_origin_after (service : Service) (events : List Event) :
    ((start service).after events).runs.map Run.origin =
      (created events).mapIdx (fun n c => (n, c.range.first, c)) := by
  induction events using List.reverseRecOn with
  | nil => rfl
  | append_singleton events e ih =>
      have hlength := congrArg List.length ih
      rw [List.length_map, List.length_mapIdx] at hlength
      rw [after_concat, map_origin_step ((Sound.start service).after events), ih, hlength,
        created_concat, List.mapIdx_append]
      cases e.command? <;> simp

theorem map_key_command_after (service : Service) (events : List Event) :
    ((start service).after events).runs.map (fun run => (run.key, run.command)) =
      (created events).map (fun c => (c.range.first, c)) := by
  have h := congrArg (List.map Prod.snd) (map_origin_after service events)
  rw [List.map_map] at h
  refine h.trans (List.ext_getElem? fun n => ?_)
  rw [List.getElem?_map, List.getElem?_mapIdx, List.getElem?_map, Option.map_map]
  rfl

theorem map_command_after (service : Service) (events : List Event) :
    ((start service).after events).runs.map Run.command = created events := by
  have h := congrArg (List.map Prod.snd) (map_key_command_after service events)
  rw [List.map_map, List.map_map] at h
  exact h.trans (List.map_id' _)

theorem key_mem_created {service : Service} {events : List Event} {run : Run}
    (h : run ∈ ((start service).after events).runs) :
    run.key ∈ (created events).map (fun c => c.range.first) := by
  have hkeys := congrArg (List.map Prod.fst) (map_key_command_after service events)
  rw [List.map_map, List.map_map] at hkeys
  exact (congrArg (run.key ∈ ·) hkeys).mp (List.mem_map_of_mem h)

end Runner

end QueueScript
