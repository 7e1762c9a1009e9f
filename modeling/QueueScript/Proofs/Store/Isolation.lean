import Mathlib.Data.List.Forall2
import Mathlib.Order.Monotone.Basic
import QueueScript.Proofs.Store.Identity

namespace QueueScript

def Message.renumbered (f : Nat → Nat) (m : Message) : Message := { m with number := f m.number }

inductive Delivery.Renumbered (f : Nat → Nat) : Delivery → Delivery → Prop where
  | of (k n : Nat) (body : String) :
      Renumbered f ⟨Message.idOf k, handle (Message.idOf k) n, body⟩
        ⟨Message.idOf (f k), handle (Message.idOf (f k)) n, body⟩

inductive Response.Renumbered (f : Nat → Nat) : Response → Response → Prop where
  | sent (k : Nat) : Renumbered f (.sent (Message.idOf k)) (.sent (Message.idOf (f k)))
  | received {ds es : List Delivery} (h : List.Forall₂ (Delivery.Renumbered f) ds es) :
      Renumbered f (.received ds) (.received es)
  | purged : Renumbered f .purged .purged

inductive Result.Renumbered (f : Nat → Nat) {ε : Type} :
    Except ε Response → Except ε Response → Prop where
  | ok {a b : Response} (h : a.Renumbered f b) : Renumbered f (.ok a) (.ok b)
  | error (e : ε) : Renumbered f (.error e) (.error e)

theorem Result.Renumbered.mapError {f : Nat → Nat} {ε ε' : Type} {a b : Except ε Response}
    (h : Result.Renumbered f a b) (g : ε → ε') :
    Result.Renumbered f (a.mapError g) (b.mapError g) := by
  cases h with
  | ok h => exact .ok h
  | error e => exact .error (g e)

theorem Queue.receive_renumbered (f : Nat → Nat) (now timeout n : Nat) (q : Queue) :
    (receive now timeout n (q.map (Message.renumbered f))).1 =
        (receive now timeout n q).1.map (Message.renumbered f) ∧
      List.Forall₂ (Delivery.Renumbered f) (receive now timeout n q).2
        (receive now timeout n (q.map (Message.renumbered f))).2 := by
  fun_induction receive now timeout n q with
  | case1 => exact ⟨by simp [receive], by simp [receive]⟩
  | case2 q hq =>
      cases q with
      | nil => exact ⟨rfl, .nil⟩
      | cons m q => exact ⟨rfl, .nil⟩
  | case3 n m q hm m' q' ds hrec ih =>
      have hm' : (m.renumbered f).isVisible now = true := hm
      rw [hrec] at ih
      simp only [List.map_cons, receive, hm', if_true]
      exact ⟨congrArg _ ih.1, .cons (.of m.number (m.deliveries + 1) m.body) ih.2⟩
  | case4 n m q hm q' ds hrec ih =>
      have hm' : (m.renumbered f).isVisible now = false := Bool.eq_false_iff.mpr hm
      rw [hrec] at ih
      simp only [List.map_cons, receive, hm']
      exact ⟨congrArg _ ih.1, ih.2⟩

namespace Store

structure Mirrors (f : Nat → Nat) (q : String) (s t : Store) : Prop where
  queue : Table.lookup q s.queues = (Table.lookup q t.queues).map (List.map (Message.renumbered f))
  now : s.now = t.now

def InStep (s s' t t' : Store) : Prop :=
  (s'.next = s.next ∧ t'.next = t.next) ∨ (s'.next = s.next + 1 ∧ t'.next = t.next + 1)

namespace Mirrors

variable {f : Nat → Nat} {q : String} {s t : Store}

theorem bodies (h : Mirrors f q s t) : s.bodies q = t.bodies q := by
  rw [Store.bodies, Store.bodies, h.queue]
  cases Table.lookup q t.queues with
  | none => rfl
  | some ms => exact List.map_map

theorem of_insert {ms ms' : Queue} {queues queues' : Table String Queue}
    (hs : s.queues = Table.insert q ms queues) (ht : t.queues = Table.insert q ms' queues')
    (hms : ms = ms'.map (Message.renumbered f)) (hnow : s.now = t.now) : Mirrors f q s t := by
  refine ⟨?_, hnow⟩
  rw [hs, ht, Table.lookup_insert_self, Table.lookup_insert_self, hms]
  rfl

theorem serve {ms : Queue} {r : Request} (h : Mirrors f r.queue s t)
    (hf : (s.serve (ms.map (Message.renumbered f)) r).1.next ≠ s.next → f t.next = s.next) :
    Mirrors f r.queue (s.serve (ms.map (Message.renumbered f)) r).1 (t.serve ms r).1 ∧
      Result.Renumbered f (t.serve ms r).2 (s.serve (ms.map (Message.renumbered f)) r).2 ∧
      InStep s (s.serve (ms.map (Message.renumbered f)) r).1 t (t.serve ms r).1 := by
  cases r with
  | send queue body attributes =>
      have hnext : f t.next = s.next := hf (Nat.succ_ne_self s.next)
      refine ⟨of_insert rfl rfl ?_ h.now, ?_, .inr ⟨rfl, rfl⟩⟩
      · rw [List.map_append, ← hnext]
        rfl
      · simp only [Store.serve]
        rw [← hnext]
        exact .ok (.sent t.next)
  | receive queue maxMessages visibilityTimeout waitTime =>
      by_cases hlimit : 1 ≤ maxMessages.toNat ∧ maxMessages.toNat ≤ receiveLimit
      · simp only [Store.serve, if_pos hlimit, h.now]
        obtain ⟨hqueue, hdeliveries⟩ :=
          Queue.receive_renumbered f t.now (visibilityTimeout.toNat * second) maxMessages.toNat ms
        exact ⟨of_insert rfl rfl hqueue h.now, .ok (.received hdeliveries), .inl ⟨rfl, rfl⟩⟩
      · simp only [Store.serve, if_neg hlimit]
        exact ⟨h, .error _, .inl ⟨rfl, rfl⟩⟩
  | purge queue => exact ⟨of_insert rfl rfl rfl h.now, .ok .purged, .inl ⟨rfl, rfl⟩⟩

theorem call {r : Request} (h : Mirrors f r.queue s t)
    (hf : (s.call r).1.next ≠ s.next → f t.next = s.next) :
    Mirrors f r.queue (s.call r).1 (t.call r).1 ∧
      Result.Renumbered f (t.call r).2 (s.call r).2 ∧ InStep s (s.call r).1 t (t.call r).1 := by
  have hs := h.queue
  cases ht : Table.lookup r.queue t.queues with
  | none =>
      rw [ht] at hs
      rw [call_of_none hs, call_of_none ht]
      exact ⟨h, .error _, .inl ⟨rfl, rfl⟩⟩
  | some ms =>
      rw [ht] at hs
      rw [call_of_some hs] at hf ⊢
      rw [call_of_some ht]
      exact h.serve hf

theorem execute {c : Command} (h : Mirrors f c.target s t)
    (hf : (s.execute c).1.next ≠ s.next → f t.next = s.next) :
    Mirrors f c.target (s.execute c).1 (t.execute c).1 ∧
      Result.Renumbered f (t.execute c).2 (s.execute c).2 ∧
      InStep s (s.execute c).1 t (t.execute c).1 := by
  cases hr : Request.ofCommand c with
  | error e =>
      have hi := Invocation.ofCommand_of_error hr
      rw [s.execute_of_error hi, t.execute_of_error hi]
      exact ⟨h, .error _, .inl ⟨rfl, rfl⟩⟩
  | ok r =>
      have hi := Invocation.ofCommand_of_ok hr
      rw [← Request.queue_of_ofCommand hr] at h ⊢
      rw [s.execute_of_ok hi] at hf ⊢
      rw [t.execute_of_ok hi]
      obtain ⟨hqueue, hanswer, hnext⟩ := h.call hf
      exact ⟨hqueue, hanswer.mapError ExecuteError.service, hnext⟩

theorem create (h : Mirrors f q s t) : Mirrors f q (s.create q) (t.create q) := by
  have hs := h.queue
  cases ht : Table.lookup q t.queues with
  | none =>
      rw [ht, Option.map_none] at hs
      simp only [Store.create, ht, hs]
      exact of_insert rfl rfl rfl h.now
  | some ms =>
      rw [ht, Option.map_some] at hs
      simp only [Store.create, ht, hs]
      exact h

end Mirrors

end Store

def precede (a : Nat) (g : Nat → Nat) : Nat → Nat
  | 0 => a
  | i + 1 => g i

theorem strictMono_precede {a : Nat} {g : Nat → Nat} (ha : a < g 0) (hg : StrictMono g) :
    StrictMono (precede a g) := by
  refine strictMono_nat_of_lt_succ ?_
  intro i
  cases i with
  | zero => exact ha
  | succ i => exact hg (Nat.lt_succ_self i)

theorem exists_strictMono_through (l : List Nat) (b : Nat) (hl : l.Pairwise (· < ·))
    (hb : ∀ n ∈ l, b ≤ n) :
    ∃ g : Nat → Nat, StrictMono g ∧ b ≤ g 0 ∧ ∀ i n, l[i]? = some n → g i = n := by
  induction l generalizing b with
  | nil => exact ⟨(b + ·), fun _ _ h => Nat.add_lt_add_left h b, Nat.le_refl b, by simp⟩
  | cons a l ih =>
      obtain ⟨ha, hl⟩ := List.pairwise_cons.mp hl
      obtain ⟨g, hg, hstart, hthrough⟩ := ih (a + 1) hl ha
      refine ⟨precede a g, strictMono_precede hstart hg, hb a (List.mem_cons_self ..), ?_⟩
      intro i n hn
      cases i with
      | zero => exact Option.some.inj hn
      | succ i => exact hthrough i n hn

namespace Session

variable {f : Nat → Nat} {q : String} {s t : Store}

-- Time passes for every queue.
def Act.concerns (q : String) : Act → Bool
  | .create t => t == q
  | .execute c => c.target == q
  | .wait _ => true

namespace Entry

def concerns (q : String) : Entry → Bool
  | .created t => t == q
  | .executed c _ => c.target == q
  | .waited _ => true

inductive Renumbered (f : Nat → Nat) : Entry → Entry → Prop where
  | created (q : String) : Renumbered f (.created q) (.created q)
  | executed (c : Command) {a b : Except ExecuteError Response} (h : Result.Renumbered f a b) :
      Renumbered f (.executed c a) (.executed c b)
  | waited (time : Nat) : Renumbered f (.waited time) (.waited time)

end Entry

theorem concerns_act (q : String) (s : Store) (a : Act) :
    (act s a).2.concerns q = a.concerns q := by
  cases a <;> rfl

theorem lookup_act_of_elsewhere {a : Act} (h : a.concerns q = false) (s : Store) :
    Table.lookup q (act s a).1.queues = Table.lookup q s.queues := by
  cases a with
  | create t =>
      have hne : q ≠ t := (beq_eq_false_iff_ne.mp h).symm
      simp only [act, Store.create]
      split
      · rfl
      · exact Table.lookup_insert_of_ne hne _ _
  | execute c =>
      have hne : q ≠ c.target := (beq_eq_false_iff_ne.mp h).symm
      have hexecutes := s.executes c
      simp only [act]
      generalize (s.execute c).1 = s', (s.execute c).2 = r at hexecutes
      cases hexecutes with
      | missing | unknown | rejected => rfl
      | sent | received | purged => exact Table.lookup_insert_of_ne hne _ _
  | wait time => cases h

theorem mirrors_act_of_elsewhere {a : Act} (ha : a.concerns q = false)
    (h : Store.Mirrors f q s t) : Store.Mirrors f q (act s a).1 t := by
  have htime : a.time = 0 := by
    cases a with
    | create | execute => rfl
    | wait time => cases ha
  refine ⟨(lookup_act_of_elsewhere ha s).trans h.queue, ?_⟩
  rw [now_act, htime]
  exact h.now

theorem mirrors_act {a : Act} (ha : a.concerns q = true) (h : Store.Mirrors f q s t)
    (hf : (act s a).1.next ≠ s.next → f t.next = s.next) :
    Store.Mirrors f q (act s a).1 (act t a).1 ∧ (act t a).2.Renumbered f (act s a).2 ∧
      Store.InStep s (act s a).1 t (act t a).1 := by
  cases a with
  | create x =>
      obtain rfl : x = q := beq_iff_eq.mp ha
      have hnext (s : Store) : (s.create x).next = s.next := by
        rw [Store.create]
        split <;> rfl
      exact ⟨h.create, .created x, .inl ⟨hnext s, hnext t⟩⟩
  | execute c =>
      obtain rfl : c.target = q := beq_iff_eq.mp ha
      obtain ⟨hqueue, hanswer, hnext⟩ := h.execute hf
      exact ⟨hqueue, .executed c hanswer, hnext⟩
  | wait time =>
      exact ⟨⟨h.queue, congrArg (· + time) h.now⟩, .waited time, .inl ⟨rfl, rfl⟩⟩

def trace (q : String) (s : Store) : List Act → List (Entry × List String)
  | [] => []
  | a :: acts => ((act s a).2, (act s a).1.bodies q) :: trace q (act s a).1 acts

def numbers (q : String) (s : Store) : List Act → List Nat
  | [] => []
  | a :: acts =>
      (if a.concerns q = true ∧ (act s a).1.next ≠ s.next then [s.next] else []) ++
        numbers q (act s a).1 acts

theorem numbers_rise (q : String) (s : Store) (acts : List Act) :
    (numbers q s acts).Pairwise (· < ·) ∧ ∀ n ∈ numbers q s acts, s.next ≤ n := by
  induction acts generalizing s with
  | nil => exact ⟨.nil, by simp [numbers]⟩
  | cons a acts ih =>
      obtain ⟨hrise, hfrom⟩ := ih (act s a).1
      have hnext : (act s a).1.next = s.next ∨ (act s a).1.next = s.next + 1 :=
        (act_next_and_answer s a).imp And.right And.right
      rw [numbers]
      split
      · rename_i hsent
        refine ⟨List.pairwise_cons.mpr ⟨?_, hrise⟩, ?_⟩
        · intro n hn
          have hn := hfrom n hn
          omega
        · intro n hn
          rcases List.mem_cons.mp hn with rfl | hn
          · exact Nat.le_refl _
          · have hn := hfrom n hn
            omega
      · refine ⟨hrise, ?_⟩
        intro n hn
        have hn := hfrom n hn
        omega

theorem forall₂_trace (acts : List Act) (h : Store.Mirrors f q s t)
    (hf : ∀ i n, (numbers q s acts)[i]? = some n → f (t.next + i) = n) :
    List.Forall₂ (fun a b => a.1.Renumbered f b.1 ∧ a.2 = b.2)
      (trace q t (acts.filter (Act.concerns q)))
      ((trace q s acts).filter (fun e => e.1.concerns q)) := by
  induction acts generalizing s t with
  | nil => exact .nil
  | cons a acts ih =>
      rw [numbers] at hf
      rw [trace]
      cases ha : a.concerns q with
      | false =>
          rw [List.filter_cons_of_neg (by simp [ha]),
            List.filter_cons_of_neg (by simp [concerns_act, ha])]
          refine ih (mirrors_act_of_elsewhere ha h) ?_
          simpa [ha] using hf
      | true =>
          rw [List.filter_cons_of_pos ha, List.filter_cons_of_pos (by simp [concerns_act, ha]),
            trace]
          obtain ⟨hqueue, hentry, hnext⟩ :=
            mirrors_act ha h (fun hsent => hf 0 s.next (by simp [ha, hsent]))
          refine .cons ⟨hentry, hqueue.bodies.symm⟩ (ih hqueue ?_)
          intro i n hn
          rcases hnext with ⟨hs, ht⟩ | ⟨hs, ht⟩
          · rw [ht]
            exact hf i n (by simpa [hs] using hn)
          · rw [ht, Nat.add_assoc, Nat.add_comm 1]
            exact hf (i + 1) n (by simpa [ha, hs] using hn)

theorem queues_isolated (acts : List Act) (q : String) :
    ∃ f : Nat → Nat, StrictMono f ∧
      List.Forall₂ (fun a b => a.1.Renumbered f b.1 ∧ a.2 = b.2)
        (trace q {} (acts.filter (Act.concerns q)))
        ((trace q {} acts).filter (fun e => e.1.concerns q)) := by
  obtain ⟨hrise, hfrom⟩ := numbers_rise q {} acts
  obtain ⟨g, hg, hstart, hthrough⟩ := exists_strictMono_through _ _ hrise hfrom
  refine ⟨precede 0 g, strictMono_precede hstart hg, forall₂_trace acts ⟨rfl, rfl⟩ ?_⟩
  intro i n hn
  rw [Nat.add_comm]
  exact hthrough i n hn

end Session

end QueueScript
