import Mathlib.Data.List.Forall2
import Mathlib.Logic.Relation
import QueueScript.Runner

namespace QueueScript

def Phase.isLive : Phase → Bool
  | .waiting => true
  | .started _ _ => true
  | .finished _ => false
  | .aborted => false

def Run.isLive (run : Run) : Bool := run.phase.isLive

theorem Run.isLive_of_waiting {run : Run} (h : run.phase = .waiting) : run.isLive = true := by
  rw [isLive, h, Phase.isLive]

theorem Run.isLive_of_started {run : Run} {i : Invocation} {deadline : Nat}
    (h : run.phase = .started i deadline) : run.isLive = true := by
  rw [isLive, h, Phase.isLive]

inductive Phase.Leads : Phase → Phase → Prop where
  | stay (p : Phase) : Leads p p
  | start (i : Invocation) (deadline : Nat) : Leads .waiting (.started i deadline)
  | finish {p : Phase} (live : p.isLive = true) (o : Outcome) : Leads p (.finished o)

theorem Phase.Leads.trans {p q u : Phase} (h : p.Leads q) (h' : q.Leads u) : p.Leads u := by
  cases h with
  | stay => exact h'
  | start i d =>
      cases h' with
      | stay => exact .start i d
      | finish _ o => exact .finish rfl o
  | finish hp o =>
      cases h' with
      | stay => exact .finish hp o
      | finish hq => cases hq

theorem Phase.Leads.eq_of_not_live {p q : Phase} (h : p.Leads q) (hp : p.isLive = false) :
    q = p := by
  cases h with
  | stay => rfl
  | start => cases hp
  | finish hlive => rw [hlive] at hp; cases hp

theorem Phase.Leads.ne_aborted {p q : Phase} (h : p.Leads q) (hp : p ≠ .aborted) :
    q ≠ .aborted := by
  cases h with
  | stay => exact hp
  | start | finish => simp

theorem Phase.Leads.exists_finished {p q : Phase} (h : p.Leads q) (hp : p.isLive = true)
    (hq : q.isLive = false) : ∃ o, q = .finished o := by
  cases h with
  | stay => rw [hp] at hq; cases hq
  | start => cases hq
  | finish _ o => exact ⟨o, rfl⟩

theorem Phase.Leads.of_started {i : Invocation} {d : Nat} {q : Phase}
    (h : (Phase.started i d).Leads q) : q = .started i d ∨ q.isLive = false := by
  cases h with
  | stay => exact .inl rfl
  | finish => exact .inr rfl

namespace Run

def origin (run : Run) : Nat × Nat × Command := (run.id, run.key, run.command)

structure Leads (a b : Run) : Prop where
  origin : a.origin = b.origin
  phase : a.phase.Leads b.phase
  taken : b.taken = true → a.taken = true ∨ b.isLive = false

instance : Std.Refl Leads := ⟨fun a => ⟨rfl, .stay a.phase, .inl⟩⟩

theorem Leads.phase_eq {a b : Run} (h : a.Leads b) (ha : a.isLive = false) : b.phase = a.phase :=
  h.phase.eq_of_not_live ha

theorem Leads.not_live {a b : Run} (h : a.Leads b) (ha : a.isLive = false) : b.isLive = false := by
  rw [isLive, h.phase_eq ha, ← isLive, ha]

theorem Leads.trans {a b c : Run} (h : a.Leads b) (h' : b.Leads c) : a.Leads c := by
  refine ⟨h.origin.trans h'.origin, h.phase.trans h'.phase, ?_⟩
  intro hc
  rcases h'.taken hc with hb | hc
  · rcases h.taken hb with ha | hb
    · exact .inl ha
    · exact .inr (h'.not_live hb)
  · exact .inr hc

end Run

theorem forall₂_leads_trans {as bs cs : List Run} (h : List.Forall₂ Run.Leads as bs)
    (h' : List.Forall₂ Run.Leads bs cs) : List.Forall₂ Run.Leads as cs := by
  induction h generalizing cs with
  | nil => exact h'
  | cons hab _ ih =>
      cases h' with
      | cons hbc hrest => exact .cons (hab.trans hbc) (ih hrest)

theorem exists_of_mem_left {R : Run → Run → Prop} {as bs : List Run} (h : List.Forall₂ R as bs)
    {a : Run} (ha : a ∈ as) : ∃ b ∈ bs, R a b := by
  induction h with
  | nil => simp at ha
  | cons hab _ ih =>
      rcases List.mem_cons.mp ha with rfl | ha
      · exact ⟨_, List.mem_cons_self .., hab⟩
      · obtain ⟨b, hb, hr⟩ := ih ha
        exact ⟨b, List.mem_cons_of_mem _ hb, hr⟩

theorem exists_of_mem_right {R : Run → Run → Prop} {as bs : List Run} (h : List.Forall₂ R as bs)
    {b : Run} (hb : b ∈ bs) : ∃ a ∈ as, R a b := by
  obtain ⟨a, ha, hr⟩ := exists_of_mem_left (R := fun x y => R y x) h.flip hb
  exact ⟨a, ha, hr⟩

theorem map_origin_of_forall₂ {R : Run → Run → Prop} (hR : ∀ a b, R a b → a.origin = b.origin)
    {as bs : List Run} (h : List.Forall₂ R as bs) : as.map Run.origin = bs.map Run.origin := by
  induction h with
  | nil => rfl
  | cons hab _ ih => rw [List.map_cons, List.map_cons, ih, hR _ _ hab]

theorem map_map_ite {α : Type} {f : Run → Run} {g : Run → α} (h : ∀ x, g (f x) = g x) (id : Nat)
    (runs : List Run) :
    (runs.map (fun run => if run.id = id then f run else run)).map g = runs.map g := by
  rw [List.map_map]
  refine List.map_congr_left ?_
  intro x _
  rw [Function.comp_apply, apply_ite g, h, ite_self]

namespace Bench

theorem registry_deregister (b : Bench) (run : Run) :
    (b.deregister run).registry =
      if Table.lookup run.key b.registry = some run.id then Table.erase run.key b.registry
      else b.registry := by
  rw [deregister]
  split <;> rfl

theorem wait_deregister (b : Bench) (run : Run) : (b.deregister run).wait = b.wait := by
  rw [deregister]
  split <;> rfl

theorem registry_call (b : Bench) (run : Run) (i : Invocation) :
    (b.call run i).1.registry = (b.deregister run).registry := by
  rw [call]
  split
  · simp only [finish, registry_deregister, tell]
  · rfl
  · rfl

theorem wait_call (b : Bench) (run : Run) (i : Invocation) : (b.call run i).1.wait = b.wait := by
  rw [call]
  split
  · rename_i h
    simp only [finish, wait_deregister]
    simp only [wait, tell, h]
  · exact b.wait_deregister run
  · exact b.wait_deregister run

theorem exists_call_eq (b : Bench) (run : Run) (i : Invocation) :
    ∃ o, (b.call run i).2 = { run with phase := .finished o } := by
  rw [call]
  split <;> exact ⟨_, rfl⟩

end Bench

namespace Runner

/-- One thing that a runner does by itself. -/
inductive Work : Runner → Runner → Prop where
  | begin {b : Bench} {pre post : List Run} {run : Run} {i : Invocation} {now : Nat}
      (waits : run.phase = .waiting) (turn : ∀ x ∈ pre, x.phase ≠ .waiting)
      (maps : Invocation.ofCommand run.command = .ok i) (long : b.wait ≠ 0) :
      Work ⟨b, pre ++ run :: post, now⟩
        ⟨b.tell (Log.running run.command i.context),
          pre ++ { run with phase := .started i (now + b.wait) } :: post, now⟩
  | refuse {b : Bench} {pre post : List Run} {run : Run} {e : MissingBody} {now : Nat}
      (waits : run.phase = .waiting) (turn : ∀ x ∈ pre, x.phase ≠ .waiting)
      (fails : Invocation.ofCommand run.command = .error e) :
      Work ⟨b, pre ++ run :: post, now⟩
        ⟨b.deregister run,
          pre ++ { run with phase := .finished (.result (.error (.missingBody e))) } :: post, now⟩
  | callAtOnce {b : Bench} {pre post : List Run} {run : Run} {i : Invocation} {now : Nat}
      (waits : run.phase = .waiting) (turn : ∀ x ∈ pre, x.phase ≠ .waiting)
      (maps : Invocation.ofCommand run.command = .ok i) (short : b.wait = 0) :
      Work ⟨b, pre ++ run :: post, now⟩
        ⟨((b.tell (Log.running run.command i.context)).call run i).1,
          pre ++ ((b.tell (Log.running run.command i.context)).call run i).2 :: post, now⟩
  | callDue {b : Bench} {pre post : List Run} {run : Run} {i : Invocation} {now deadline : Nat}
      (started : run.phase = .started i deadline)
      (turn : ∀ x ∈ pre, ∀ j d, x.phase = .started j d → deadline < d) :
      Work ⟨b, pre ++ run :: post, now⟩ ⟨(b.call run i).1, pre ++ (b.call run i).2 :: post, now⟩
  | tick {b : Bench} {runs : List Run} {now later : Nat} (forward : now ≤ later)
      (calm : ∀ x ∈ runs, ∀ j d, x.phase = .started j d → later < d) :
      Work ⟨b, runs, now⟩ ⟨b, runs, later⟩
  | take {b : Bench} {runs : List Run} {now : Nat} (id : Nat)
      (ended : ∀ x ∈ runs, x.id = id → x.isLive = false) :
      Work ⟨b, runs, now⟩
        ⟨b, runs.map (fun run => if run.id = id then { run with taken := true } else run), now⟩

abbrev Works : Runner → Runner → Prop := Relation.ReflTransGen Work

theorem Work.leads {r r' : Runner} (h : Work r r') : List.Forall₂ Run.Leads r.runs r'.runs := by
  have replace {a b : Run} (pre post : List Run) (hab : a.Leads b) :
      List.Forall₂ Run.Leads (pre ++ a :: post) (pre ++ b :: post) :=
    List.rel_append (List.forall₂_refl pre) (.cons hab (List.forall₂_refl post))
  cases h with
  | @begin b pre post run i now waits =>
      refine replace pre post ⟨rfl, ?_, .inl⟩
      rw [waits]
      exact .start i _
  | @refuse b pre post run e now waits =>
      refine replace pre post ⟨rfl, ?_, .inl⟩
      rw [waits]
      exact .finish rfl _
  | @callAtOnce b pre post run i now waits =>
      obtain ⟨o, ho⟩ := (b.tell (Log.running run.command i.context)).exists_call_eq run i
      rw [ho]
      refine replace pre post ⟨rfl, ?_, .inl⟩
      rw [waits]
      exact .finish rfl o
  | @callDue b pre post run i now deadline started =>
      obtain ⟨o, ho⟩ := b.exists_call_eq run i
      rw [ho]
      refine replace pre post ⟨rfl, ?_, .inl⟩
      rw [started]
      exact .finish rfl o
  | tick => exact List.forall₂_refl _
  | take id ended =>
      rw [List.forall₂_map_right_iff, List.forall₂_same]
      intro x hx
      split
      · rename_i hid
        exact ⟨rfl, .stay _, fun _ => .inr (ended x hx hid)⟩
      · exact ⟨rfl, .stay _, .inl⟩

theorem Works.leads {r r' : Runner} (h : Works r r') : List.Forall₂ Run.Leads r.runs r'.runs := by
  induction h with
  | refl => exact List.forall₂_refl _
  | tail _ hwork ih => exact forall₂_leads_trans ih hwork.leads

theorem each_works {f : Bench → Run → Bench × Run} (now : Nat) {turn : Run → Prop}
    (hf : ∀ b pre run post, (∀ x ∈ pre, turn x) →
      Works ⟨b, pre ++ run :: post, now⟩ ⟨(f b run).1, pre ++ (f b run).2 :: post, now⟩ ∧
        turn (f b run).2)
    (b : Bench) (pre post : List Run) (hpre : ∀ x ∈ pre, turn x) :
    Works ⟨b, pre ++ post, now⟩ ⟨(b.each f post).1, pre ++ (b.each f post).2, now⟩ ∧
      ∀ x ∈ pre ++ (b.each f post).2, turn x := by
  induction post generalizing b pre with
  | nil => exact ⟨.refl, by simpa [Bench.each] using hpre⟩
  | cons run post ih =>
      obtain ⟨hwork, hturn⟩ := hf b pre run post hpre
      have hnext : ∀ x ∈ pre ++ [(f b run).2], turn x := by
        intro x hx
        rcases List.mem_append.mp hx with hx | hx
        · exact hpre x hx
        · exact List.mem_singleton.mp hx ▸ hturn
      obtain ⟨hrest, hall⟩ := ih (f b run).1 (pre ++ [(f b run).2]) hnext
      rw [List.append_assoc, List.append_assoc] at hrest
      rw [List.append_assoc] at hall
      exact ⟨hwork.trans hrest, hall⟩

theorem start_works (b : Bench) {now : Nat} {pre : List Run} (run : Run) (post : List Run)
    (hpre : ∀ x ∈ pre, x.phase ≠ .waiting) :
    Works ⟨b, pre ++ run :: post, now⟩
        ⟨(b.start now run).1, pre ++ (b.start now run).2 :: post, now⟩ ∧
      (b.start now run).2.phase ≠ .waiting := by
  cases hp : run.phase with
  | waiting =>
      cases hi : Invocation.ofCommand run.command with
      | error e =>
          simp only [Bench.start, hp, hi]
          exact ⟨.single (.refuse hp hpre hi), by simp [Bench.finish]⟩
      | ok i =>
          simp only [Bench.start, hp, hi]
          by_cases hw : b.wait = 0
          · rw [if_pos (show (b.tell (Log.running run.command i.context)).wait = 0 from hw)]
            obtain ⟨o, ho⟩ := (b.tell (Log.running run.command i.context)).exists_call_eq run i
            exact ⟨.single (.callAtOnce hp hpre hi hw), by simp [ho]⟩
          · rw [if_neg (show ¬ (b.tell (Log.running run.command i.context)).wait = 0 from hw)]
            exact ⟨.single (.begin hp hpre hi hw), by simp⟩
  | started | finished | aborted =>
      simp only [Bench.start, hp]
      exact ⟨.refl, by simp⟩

theorem settle_works (b : Bench) {now later : Nat} {pre : List Run} (run : Run) (post : List Run)
    (hpre : ∀ x ∈ pre, ∀ j d, x.phase = .started j d → later < d) :
    Works ⟨b, pre ++ run :: post, now⟩
        ⟨(b.settle later run).1, pre ++ (b.settle later run).2 :: post, now⟩ ∧
      ∀ j d, (b.settle later run).2.phase = .started j d → later < d := by
  cases hp : run.phase with
  | started i deadline =>
      simp only [Bench.settle, hp]
      by_cases hd : deadline ≤ later
      · rw [if_pos hd]
        have hturn : ∀ x ∈ pre, ∀ j d, x.phase = .started j d → deadline < d :=
          fun x hx j d h => Nat.lt_of_le_of_lt hd (hpre x hx j d h)
        obtain ⟨o, ho⟩ := b.exists_call_eq run i
        exact ⟨.single (.callDue hp hturn), by simp [ho]⟩
      · rw [if_neg hd]
        refine ⟨.refl, ?_⟩
        intro j d h
        rw [hp] at h
        cases h
        omega
  | waiting | finished | aborted =>
      simp only [Bench.settle, hp]
      exact ⟨.refl, by simp⟩

theorem poll_works (r : Runner) : Works r r.poll ∧ ∀ x ∈ r.poll.runs, x.phase ≠ .waiting :=
  each_works r.now (fun b _ run post hpre => start_works b run post hpre) r.bench [] r.runs
    (by simp)

theorem moveTo_works {r : Runner} {later : Nat} (h : r.now ≤ later) :
    Works r (r.moveTo later) ∧
      ∀ x ∈ (r.moveTo later).runs, ∀ j d, x.phase = .started j d → later < d := by
  obtain ⟨hworks, hcalm⟩ := each_works r.now
    (fun b _ run post hpre => settle_works b run post hpre) r.bench [] r.runs (by simp)
  exact ⟨hworks.tail (.tick h hcalm), hcalm⟩

end Runner

end QueueScript
