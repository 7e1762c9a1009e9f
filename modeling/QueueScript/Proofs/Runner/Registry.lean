import QueueScript.Proofs.Runner.Clock
import QueueScript.Proofs.Store.Execute

namespace QueueScript

structure Mark where
  id : Nat
  key : Nat
  live : Bool
  deriving DecidableEq, Repr

namespace Mark

def stop (id : Nat) (m : Mark) : Mark := if m.id = id then { m with live := false } else m

@[simp] theorem id_stop (id : Nat) (m : Mark) : (m.stop id).id = m.id := by
  rw [stop]
  split <;> rfl

@[simp] theorem key_stop (id : Nat) (m : Mark) : (m.stop id).key = m.key := by
  rw [stop]
  split <;> rfl

theorem stop_of_ne {id : Nat} {m : Mark} (h : m.id ≠ id) : m.stop id = m := by rw [stop, if_neg h]

theorem live_stop {id : Nat} {m : Mark} (h : m.live = false) : (m.stop id).live = false := by
  rw [stop]
  split
  · rfl
  · exact h

theorem stop_eq_live {id n k : Nat} {m : Mark} (h : m.stop id = ⟨n, k, true⟩) :
    m = ⟨n, k, true⟩ ∧ n ≠ id := by
  rw [stop] at h
  split at h
  · cases h
  · rename_i hne
    subst h
    exact ⟨rfl, hne⟩

theorem map_stop_split {pre post : List Mark} {m : Mark}
    (h : ((pre ++ m :: post).map Mark.id).Nodup) :
    (pre ++ m :: post).map (stop m.id) = pre ++ { m with live := false } :: post := by
  rw [List.map_append, List.map_cons, List.nodup_append] at h
  obtain ⟨_, hpost, happart⟩ := h
  have hpre : pre.map (stop m.id) = pre := by
    refine (List.map_congr_left ?_).trans (List.map_id' pre)
    intro x hx
    refine stop_of_ne ?_
    exact happart x.id (List.mem_map_of_mem hx) m.id (List.mem_cons_self ..)
  have hrest : post.map (stop m.id) = post := by
    refine (List.map_congr_left ?_).trans (List.map_id' post)
    intro x hx
    refine stop_of_ne ?_
    rintro heq
    exact (List.nodup_cons.mp hpost).1 (heq ▸ List.mem_map_of_mem hx)
  rw [List.map_append, List.map_cons, hpre, hrest, stop, if_pos rfl]

end Mark

/-- The registry holds the live marks, and only the newest mark of a key is live. -/
structure Registers (registry : Table Nat Nat) (marks : List Mark) : Prop where
  sorted : Table.Sorted registry
  ids : marks.map Mark.id = List.range marks.length
  live : ∀ k n, Table.lookup k registry = some n ↔ ⟨n, k, true⟩ ∈ marks
  newest : marks.Pairwise (fun a b => a.key = b.key → a.live = false)

namespace Registers

variable {registry : Table Nat Nat} {marks : List Mark} {k n : Nat}

theorem nodup (h : Registers registry marks) : (marks.map Mark.id).Nodup :=
  h.ids ▸ List.nodup_range

theorem eq_of_id (h : Registers registry marks) {a b : Mark} (ha : a ∈ marks) (hb : b ∈ marks)
    (hid : a.id = b.id) : a = b := List.inj_on_of_nodup_map h.nodup ha hb hid

theorem stop (h : Registers registry marks) (hk : Table.lookup k registry = some n) :
    Registers (Table.erase k registry) (marks.map (Mark.stop n)) := by
  have hn : (⟨n, k, true⟩ : Mark) ∈ marks := (h.live k n).mp hk
  refine ⟨Table.sorted_erase k h.sorted, ?_, ?_, ?_⟩
  · rw [List.map_map, List.length_map, ← h.ids]
    exact List.map_congr_left (fun m _ => Mark.id_stop n m)
  · intro j i
    by_cases hj : j = k
    · subst hj
      rw [Table.lookup_erase_self]
      simp only [reduceCtorEq, false_iff]
      intro hi
      obtain ⟨m, hm, hstop⟩ := List.mem_map.mp hi
      obtain ⟨rfl, hne⟩ := Mark.stop_eq_live hstop
      have hi := (h.live j i).mpr hm
      rw [hk] at hi
      exact hne (Option.some.inj hi).symm
    · rw [Table.lookup_erase_of_ne hj, h.live j i]
      constructor
      · intro hi
        refine List.mem_map.mpr ⟨_, hi, Mark.stop_of_ne ?_⟩
        rintro rfl
        exact hj (congrArg Mark.key (h.eq_of_id hi hn rfl))
      · intro hi
        obtain ⟨m, hm, hstop⟩ := List.mem_map.mp hi
        exact (Mark.stop_eq_live hstop).1 ▸ hm
  · rw [List.pairwise_map]
    refine h.newest.imp ?_
    intro a b hab hkey
    rw [Mark.key_stop, Mark.key_stop] at hkey
    exact Mark.live_stop (hab hkey)

theorem create {registry' : Table Nat Nat} (h : Registers registry marks)
    (free : Table.lookup k registry = none) (sorted : Table.Sorted registry')
    (new : Table.lookup k registry' = some marks.length)
    (others : ∀ j, j ≠ k → Table.lookup j registry' = Table.lookup j registry) :
    Registers registry' (marks ++ [⟨marks.length, k, true⟩]) := by
  have hfree : ∀ i, (⟨i, k, true⟩ : Mark) ∉ marks := by
    intro i hi
    have hi := (h.live k i).mpr hi
    rw [free] at hi
    cases hi
  refine ⟨sorted, ?_, ?_, ?_⟩
  · rw [List.map_append, h.ids, List.length_append]
    exact List.range_succ.symm
  · intro j i
    rw [List.mem_append, List.mem_singleton]
    by_cases hj : j = k
    · subst hj
      rw [new]
      simp [hfree, eq_comm]
    · rw [others j hj, h.live j i]
      simp [hj]
  · rw [List.pairwise_append]
    refine ⟨h.newest, List.pairwise_singleton _ _, ?_⟩
    intro a ha b hb hkey
    obtain rfl := List.mem_singleton.mp hb
    obtain ⟨i, j, live⟩ := a
    cases live with
    | false => rfl
    | true =>
        obtain rfl : j = k := hkey
        exact absurd ha (hfree i)

end Registers

namespace Run

def mark (run : Run) : Mark := ⟨run.id, run.key, run.isLive⟩

end Run

namespace Runner

def Registered (r : Runner) : Prop := Registers r.bench.registry (r.runs.map Run.mark)

namespace Registered

variable {r r' : Runner}

theorem finish {b b' : Bench} {pre post : List Run} {run : Run} {o : Outcome} {now : Nat}
    (h : Registered ⟨b, pre ++ run :: post, now⟩) (hlive : run.isLive = true)
    (hregistry : b'.registry = (b.deregister run).registry) :
    Registered ⟨b', pre ++ { run with phase := .finished o } :: post, now⟩ := by
  have hmarks : (pre ++ run :: post).map Run.mark =
      pre.map Run.mark ++ run.mark :: post.map Run.mark := by
    rw [List.map_append, List.map_cons]
  have hlookup : Table.lookup run.key b.registry = some run.id := by
    refine (h.live _ _).mpr (List.mem_map.mpr ⟨run, by simp, ?_⟩)
    rw [Run.mark, hlive]
  have hnodup := h.nodup
  have hstop : Registers (Table.erase run.key b.registry)
      (((pre ++ run :: post).map Run.mark).map (Mark.stop run.mark.id)) := h.stop hlookup
  simp only [hmarks] at hstop hnodup
  rw [Mark.map_stop_split hnodup] at hstop
  rw [Registered, List.map_append, List.map_cons, hregistry, Bench.registry_deregister,
    if_pos hlookup]
  exact hstop

theorem work (h : Registered r) (hw : Work r r') : Registered r' := by
  cases hw with
  | @begin b pre post run i now waits =>
      have hmark : ({ run with phase := .started i (now + b.wait) } : Run).mark = run.mark := by
        rw [Run.mark, Run.mark, Run.isLive, Run.isLive, waits]
        rfl
      rw [Registered, List.map_append, List.map_cons, hmark, ← List.map_cons, ← List.map_append]
      exact h
  | @refuse b pre post run e now waits =>
      exact h.finish (Run.isLive_of_waiting waits) rfl
  | @callAtOnce b pre post run i now waits =>
      obtain ⟨o, ho⟩ := (b.tell (Log.running run.command i.context)).exists_call_eq run i
      rw [ho]
      refine h.finish (Run.isLive_of_waiting waits) ?_
      rw [Bench.registry_call, Bench.registry_deregister, Bench.registry_deregister]
      rfl
  | @callDue b pre post run i now deadline started =>
      obtain ⟨o, ho⟩ := b.exists_call_eq run i
      rw [ho]
      exact h.finish (Run.isLive_of_started started) (b.registry_call run i)
  | tick => exact h
  | @take b runs now id =>
      have hmarks := map_map_ite (f := fun run => { run with taken := true }) (g := Run.mark)
        (fun _ => rfl) id runs
      rw [Registered, hmarks]
      exact h

theorem map_mark_abort (runs : List Run) (id : Nat) :
    (runs.map (fun run => if run.id = id then { run with phase := .aborted } else run)).map
        Run.mark = (runs.map Run.mark).map (Mark.stop id) := by
  rw [List.map_map, List.map_map]
  refine List.map_congr_left ?_
  intro x _
  by_cases h : x.id = id
  · simp [Mark.stop, Run.mark, Run.isLive, Phase.isLive, h]
  · simp [Mark.stop, Run.mark, h]

theorem cancel (h : Registered r) (key : Nat) : Registered (r.cancel key).1 := by
  rw [Registered, runs_cancel, freed, Runner.cancel]
  cases hk : Table.lookup key r.bench.registry with
  | none => exact h
  | some id =>
      simp only [map_mark_abort]
      exact h.stop hk

theorem run (h : Registered r) (c : Command) : Registered (r.run c).1 := by
  have hsorted := Table.sorted_insert c.range.first r.runs.length h.sorted
  have hnew := Table.lookup_insert_self c.range.first r.runs.length r.bench.registry
  rw [Registered, runs_run, registry_run, List.map_append, freed]
  cases hk : Table.lookup c.range.first r.bench.registry with
  | none =>
      have hcreate := h.create hk hsorted (by rw [hnew, List.length_map])
        (fun j hj => Table.lookup_insert_of_ne hj _ _)
      rw [List.length_map] at hcreate
      exact hcreate
  | some id =>
      have hcreate := (h.stop hk).create (Table.lookup_erase_self _ _) hsorted
        (by rw [hnew, List.length_map, List.length_map])
        (fun j hj => by rw [Table.lookup_insert_of_ne hj, Table.lookup_erase_of_ne hj])
      rw [List.length_map, List.length_map] at hcreate
      simp only [map_mark_abort]
      exact hcreate

theorem start (service : Service) : Registered (Runner.start service) :=
  ⟨.nil, rfl, by simp [Runner.start, Table.lookup], .nil⟩

theorem after (service : Service) (events : List Event) :
    Registered ((Runner.start service).after events) :=
  after_invariant (fun _ c _ h => h.run c) (fun _ key _ h => h.cancel key)
    (fun _ _ _ h hw => h.work hw) (.start service) (start service) events

theorem lookup_iff (h : Registered r) {k n : Nat} :
    Table.lookup k r.bench.registry = some n ↔
      ∃ run ∈ r.runs, run.id = n ∧ run.key = k ∧ run.isLive = true := by
  rw [h.live, List.mem_map]
  simp [Run.mark]

theorem works (h : Registered r) (s : Sound r) (hw : Works r r') : Registered r' :=
  works_invariant (fun _ _ _ h hw => h.work hw) s h hw

theorem lookup_of_live (h : Registered r) {run : Run} (hrun : run ∈ r.runs)
    (hlive : run.isLive = true) : Table.lookup run.key r.bench.registry = some run.id :=
  h.lookup_iff.mpr ⟨run, hrun, rfl, rfl, hlive⟩

theorem over_of_live (h : Registered r) (s : Sound r) {a b : Run} (ha : a ∈ r.runs)
    (hb : b ∈ r.runs) (hlive : a.isLive = true) (hkey : b.key = a.key) :
    b = a ∨ b.id < a.id ∧ b.isLive = false := by
  have hids : r.runs.Pairwise (fun a b => a.id < b.id) := by
    rw [← List.pairwise_map (f := Run.id), s.ids]
    exact List.pairwise_lt_range
  have hpairs := hids.and (List.pairwise_map.mp h.newest)
  obtain ⟨pre, post, hsplit⟩ := List.append_of_mem ha
  rw [hsplit] at hb hpairs
  obtain ⟨_, hcons, hpre⟩ := List.pairwise_append.mp hpairs
  rcases List.mem_append.mp hb with hb | hb
  · obtain ⟨hid, hover⟩ := hpre b hb a (List.mem_cons_self ..)
    exact .inr ⟨hid, hover hkey⟩
  · rcases List.mem_cons.mp hb with rfl | hb
    · exact .inl rfl
    · have hover : a.isLive = false := ((List.pairwise_cons.mp hcons).1 b hb).2 hkey.symm
      rw [hlive] at hover
      cases hover

theorem length_running (h : Registered r) : r.running.length = r.runs.countP Run.isLive := by
  have hnodup : ((r.runs.filter Run.isLive).map Run.key).Nodup := by
    rw [List.Nodup, List.pairwise_map, List.pairwise_filter]
    refine (List.pairwise_map.mp h.newest).imp ?_
    intro a b hab ha _ hkey
    have hover : a.isLive = false := hab hkey
    rw [ha] at hover
    cases hover
  have hsorted : r.running.Nodup := h.sorted.imp Nat.ne_of_lt
  have hperm : r.running.Perm ((r.runs.filter Run.isLive).map Run.key) := by
    refine (List.perm_ext_iff_of_nodup hsorted hnodup).mpr ?_
    intro k
    rw [running, Table.mem_keys_iff, Option.isSome_iff_exists, List.mem_map]
    simp only [h.lookup_iff, List.mem_filter]
    constructor
    · rintro ⟨_, run, hrun, _, hkey, hlive⟩
      exact ⟨run, ⟨hrun, hlive⟩, hkey⟩
    · rintro ⟨run, ⟨hrun, hlive⟩, hkey⟩
      exact ⟨_, run, hrun, rfl, hkey, hlive⟩
  rw [hperm.length_eq, List.length_map, List.countP_eq_length_filter]

theorem deregister_eq (h : Registered r) (s : Sound r) {run : Run} (hrun : run ∈ r.runs)
    (hover : run.isLive = false) : r.bench.deregister run = r.bench := by
  refine if_neg ?_
  intro hk
  obtain ⟨x, hx, hid, _, hlive⟩ := h.lookup_iff.mp hk
  rw [s.eq_of_id hx hrun hid, hover] at hlive
  cases hlive

end Registered

theorem snd_cancel (r : Runner) (key : Nat) : (r.cancel key).2 = r.isRunning key := by
  rw [cancel, isRunning]
  cases Table.lookup key r.bench.registry <;> rfl

theorem lookup_cancel (r : Runner) (j key : Nat) :
    Table.lookup j (r.cancel key).1.bench.registry =
      if j = key then none else Table.lookup j r.bench.registry := by
  rw [cancel]
  split
  · split
    · rename_i hj
      rw [hj]
      exact Table.lookup_erase_self key r.bench.registry
    · rename_i hj
      exact Table.lookup_erase_of_ne hj r.bench.registry
  · split
    · rename_i hk hj
      rw [hj]
      exact hk
    · rfl

theorem aborted_mem_freed {r : Runner} {run : Run} {key : Nat} (hrun : run ∈ r.runs)
    (hk : Table.lookup key r.bench.registry = some run.id) :
    { run with phase := .aborted } ∈ r.freed key := by
  rw [freed, hk]
  refine List.mem_map.mpr ⟨run, hrun, ?_⟩
  rw [if_pos rfl]

theorem Registered.lost {r : Runner} (h : Registered r) (s : Sound r) {e : Event} {k n : Nat}
    (hk : Table.lookup k r.bench.registry = some n)
    (hlost : Table.lookup k (r.step e).1.bench.registry ≠ some n) :
    ∃ run ∈ (r.step e).1.runs, run.id = n ∧ run.key = k ∧ ((∃ o, run.phase = .finished o) ∨
      run.phase = .aborted ∧ (e = .cancel k ∨ ∃ c, e = .run c ∧ c.range.first = k)) := by
  obtain ⟨run, hrun, rfl, rfl, hlive⟩ := h.lookup_iff.mp hk
  rcases step_cases s e with ⟨c, rfl, hstep⟩ | ⟨key, rfl, hstep⟩ | ⟨_, hworks⟩
  · rw [hstep] at hlost ⊢
    have hc : c.range.first = run.key := by
      refine Decidable.byContradiction fun hc => hlost ?_
      rw [registry_run, Table.lookup_insert_of_ne (Ne.symm hc), hk]
    refine ⟨{ run with phase := .aborted }, ?_, rfl, rfl, .inr ⟨rfl, .inr ⟨c, rfl, hc⟩⟩⟩
    rw [runs_run, hc]
    exact List.mem_append_left _ (aborted_mem_freed hrun hk)
  · rw [hstep] at hlost ⊢
    obtain rfl : run.key = key := by
      refine Decidable.byContradiction fun hkey => hlost ?_
      rw [lookup_cancel, if_neg hkey, hk]
    refine ⟨{ run with phase := .aborted }, ?_, rfl, rfl, .inr ⟨rfl, .inl rfl⟩⟩
    rw [runs_cancel]
    exact aborted_mem_freed hrun hk
  · obtain ⟨x, hx, hleads⟩ := exists_of_mem_left hworks.leads hrun
    have hid : x.id = run.id := congrArg Prod.fst hleads.origin.symm
    have hkey : x.key = run.key := congrArg (fun o => o.2.1) hleads.origin.symm
    have hover : x.isLive = false := by
      refine Bool.eq_false_iff.mpr fun hx' => hlost ?_
      rw [← hid, ← hkey]
      exact (h.works s hworks).lookup_of_live hx hx'
    exact ⟨x, hx, hid, hkey, .inl (hleads.phase.exists_finished hlive hover)⟩

theorem registry_holds_live_runs (service : Service) (events : List Event) :
    let r := (start service).after events
    r.runs.map Run.origin = (created events).mapIdx (fun n c => (n, c.range.first, c)) ∧
      (∀ k n, Table.lookup k r.bench.registry = some n ↔
        ∃ run ∈ r.runs, run.id = n ∧ run.key = k ∧ run.isLive = true) ∧
      (∀ a ∈ r.runs, a.isLive = true → ∀ b ∈ r.runs, b.key = a.key →
        b = a ∨ b.id < a.id ∧ b.isLive = false) ∧
      r.running.length = r.runs.countP Run.isLive ∧
      (∀ k, (r.cancel k).2 = r.isRunning k ∧ (r.cancel k).1.isRunning k = false ∧
        ∀ j, j ≠ k → Table.lookup j (r.cancel k).1.bench.registry =
          Table.lookup j r.bench.registry) ∧
      (∀ run ∈ r.runs, run.isLive = false → r.bench.deregister run = r.bench) ∧
      ∀ e k n, Table.lookup k r.bench.registry = some n →
        Table.lookup k (r.step e).1.bench.registry ≠ some n →
        ∃ run ∈ (r.step e).1.runs, run.id = n ∧ run.key = k ∧ ((∃ o, run.phase = .finished o) ∨
          run.phase = .aborted ∧ (e = .cancel k ∨ ∃ c, e = .run c ∧ c.range.first = k)) := by
  intro r
  have h : Registered r := .after service events
  have s : Sound r := (Sound.start service).after events
  refine ⟨map_origin_after service events, fun k n => h.lookup_iff, ?_, h.length_running, ?_, ?_,
    ?_⟩
  · intro a ha hlive b hb hkey
    exact h.over_of_live s ha hb hlive hkey
  · intro k
    refine ⟨r.snd_cancel k, ?_, ?_⟩
    · rw [isRunning, lookup_cancel, if_pos rfl]
      rfl
    · intro j hj
      rw [lookup_cancel, if_neg hj]
  · intro run hrun hover
    exact h.deregister_eq s hrun hover
  · intro e k n hk hlost
    exact h.lost s hk hlost

theorem registry_holds_live_runs_superseded :
    let c := Command.bare .purge "q"
    let r := (start (.memory {} 5)).after [.run c, .poll, .run c, .poll]
    r.runs.map (fun run => (run.id, run.isLive)) = [(0, false), (1, true)] ∧
      (∃ run ∈ r.runs, run.id = 1 ∧ run.key = 0 ∧ run.isLive = true) ∧
      (∀ run ∈ r.runs, run.id = 0 → r.bench.deregister run = r.bench) ∧
      r.running.length = 1 ∧ (r.cancel 0).2 = true ∧
      Table.lookup 0 (r.step (.advance 5)).1.bench.registry ≠ some 1 ∧
      ∃ run ∈ (r.step (.advance 5)).1.runs, run.id = 1 ∧ ∃ o, run.phase = .finished o := by
  intro c r
  have hk : Table.lookup 0 r.bench.registry = some 1 := rfl
  have hlost : Table.lookup 0 (r.step (.advance 5)).1.bench.registry ≠ some 1 := by decide
  have hphases : r.runs.map (fun run => (run.id, run.isLive)) = [(0, false), (1, true)] := rfl
  obtain ⟨_, hlookup, _, hlength, hcancel, hover, hgone⟩ :=
    registry_holds_live_runs (.memory {} 5) [.run c, .poll, .run c, .poll]
  have hr : (start (.memory {} 5)).after [.run c, .poll, .run c, .poll] = r := rfl
  rw [hr] at hlookup hlength hcancel hover hgone
  refine ⟨hphases, (hlookup 0 1).mp hk, ?_, hlength.trans rfl, (hcancel 0).1.trans rfl, hlost, ?_⟩
  · intro run hrun hid
    refine hover run hrun ?_
    have hmem := List.mem_map_of_mem (f := fun run => (run.id, run.isLive)) hrun
    rw [hphases, hid] at hmem
    simpa using hmem
  · obtain ⟨run, hrun, hid, _, hfinished | ⟨_, hcause | ⟨_, hcause, _⟩⟩⟩ :=
      hgone (.advance 5) 0 1 hk hlost
    · exact ⟨run, hrun, hid, hfinished⟩
    · cases hcause
    · cases hcause

end Runner

end QueueScript
