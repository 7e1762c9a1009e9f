import QueueScript.Store

namespace QueueScript

namespace Command

def limit (c : Command) : Nat := (c.maxMessages.getD Request.defaultMaxMessages).toNat

def hides (c : Command) : Bool := c.visibilityTimeout.getD Request.defaultVisibilityTimeout != 0

-- In nanoseconds.
def timeout (c : Command) : Nat :=
  (c.visibilityTimeout.getD Request.defaultVisibilityTimeout).toNat * Store.second

theorem hides_iff (c : Command) : c.hides = true ↔ c.timeout ≠ 0 := by
  have hzero (n : UInt32) : n = 0 ↔ n.toNat = 0 := UInt32.toNat_inj.symm
  have hsecond : Store.second ≠ 0 := by decide
  rw [hides, timeout, bne_iff_ne, Ne, hzero, Ne, Nat.mul_eq_zero, or_iff_left hsecond]

def bare (kind : Kind) (target : String) : Command :=
  ⟨kind, target, "default", "us-east-1", none, none, none, none, none, ⟨0, 0⟩, none, [], []⟩

end Command

theorem Request.ofCommand_eq_error_iff {c : Command} {e : MissingBody} :
    Request.ofCommand c = .error e ↔
      (c.kind = .send ∧ c.body = none) ∧ e = ⟨c.target, c.range.first + 1⟩ := by
  cases hk : c.kind with
  | send => cases hb : c.body <;> simp [Request.ofCommand, hk, hb, eq_comm]
  | receive => simp [Request.ofCommand, hk]
  | purge => simp [Request.ofCommand, hk]

theorem Request.ofCommand_eq_ok {c : Command} {r : Request} (h : Request.ofCommand c = .ok r) :
    (∃ body, c.kind = .send ∧ c.body = some body ∧
        r = .send c.target body.compact c.attributes) ∨
      (c.kind = .receive ∧ r = .receive c.target (c.maxMessages.getD defaultMaxMessages)
        (c.visibilityTimeout.getD defaultVisibilityTimeout) (c.waitTime.getD defaultWaitTime)) ∨
      c.kind = .purge ∧ r = .purge c.target := by
  cases hk : c.kind with
  | send =>
      cases hb : c.body with
      | none => simp [Request.ofCommand, hk, hb] at h
      | some body =>
          simp only [Request.ofCommand, hk, hb, Except.ok.injEq] at h
          exact .inl ⟨body, rfl, rfl, h.symm⟩
  | receive =>
      simp only [Request.ofCommand, hk, Except.ok.injEq] at h
      exact .inr (.inl ⟨rfl, h.symm⟩)
  | purge =>
      simp only [Request.ofCommand, hk, Except.ok.injEq] at h
      exact .inr (.inr ⟨rfl, h.symm⟩)

theorem Request.queue_of_ofCommand {c : Command} {r : Request} (h : Request.ofCommand c = .ok r) :
    r.queue = c.target := by
  rcases Request.ofCommand_eq_ok h with ⟨_, _, _, rfl⟩ | ⟨_, rfl⟩ | ⟨_, rfl⟩ <;> rfl

theorem Invocation.ofCommand_of_error {c : Command} {e : MissingBody}
    (h : Request.ofCommand c = .error e) : Invocation.ofCommand c = .error e := by
  rw [ofCommand, h]
  rfl

theorem Invocation.ofCommand_of_ok {c : Command} {r : Request} (h : Request.ofCommand c = .ok r) :
    Invocation.ofCommand c = .ok ⟨⟨c.profile, c.region⟩, r⟩ := by
  rw [ofCommand, h]
  rfl

theorem Invocation.ofCommand_eq_error_iff {c : Command} {e : MissingBody} :
    Invocation.ofCommand c = .error e ↔
      (c.kind = .send ∧ c.body = none) ∧ e = ⟨c.target, c.range.first + 1⟩ := by
  rw [← Request.ofCommand_eq_error_iff]
  cases h : Request.ofCommand c with
  | error e' => simp [ofCommand_of_error h]
  | ok r => simp [ofCommand_of_ok h]

namespace Store

theorem execute_of_error {c : Command} {e : MissingBody} (s : Store)
    (h : Invocation.ofCommand c = .error e) : s.execute c = (s, .error (.missingBody e)) := by
  simp only [execute, h]

theorem execute_of_ok {c : Command} {i : Invocation} (s : Store)
    (h : Invocation.ofCommand c = .ok i) :
    s.execute c = ((s.call i.request).1, (s.call i.request).2.mapError .service) := by
  simp only [execute, h]
  cases s.call i.request with
  | mk s' answer => cases answer <;> rfl

theorem call_of_none {s : Store} {r : Request} (h : Table.lookup r.queue s.queues = none) :
    s.call r = (s, .error (.queueNotFound r.queue)) := by
  simp only [call, h]

theorem call_of_some {s : Store} {r : Request} {ms : Queue}
    (h : Table.lookup r.queue s.queues = some ms) : s.call r = s.serve ms r := by
  simp only [call, h]

inductive Executes (s : Store) (c : Command) : Store → Except ExecuteError Response → Prop where
  | missing (kind : c.kind = .send) (body : c.body = none) :
      Executes s c s (.error (.missingBody ⟨c.target, c.range.first + 1⟩))
  | unknown (body : c.kind = .send → c.body ≠ none)
      (queue : Table.lookup c.target s.queues = none) :
      Executes s c s (.error (.service (.queueNotFound c.target)))
  | rejected {ms : Queue} (text : String) (kind : c.kind = .receive)
      (queue : Table.lookup c.target s.queues = some ms)
      (limit : ¬ (1 ≤ c.limit ∧ c.limit ≤ receiveLimit)) :
      Executes s c s (.error (.service (.rejected text)))
  | sent {ms : Queue} {body : Json} (kind : c.kind = .send) (content : c.body = some body)
      (queue : Table.lookup c.target s.queues = some ms) :
      Executes s c
        { s.setQueue c.target (ms ++ [⟨s.next, body.compact, 0, none⟩]) with next := s.next + 1 }
        (.ok (.sent (Message.id ⟨s.next, body.compact, 0, none⟩)))
  | received {ms : Queue} (kind : c.kind = .receive)
      (queue : Table.lookup c.target s.queues = some ms)
      (limit : 1 ≤ c.limit ∧ c.limit ≤ receiveLimit) :
      Executes s c (s.setQueue c.target (ms.receive s.now c.timeout c.limit).1)
        (.ok (.received (ms.receive s.now c.timeout c.limit).2))
  | purged {ms : Queue} (kind : c.kind = .purge)
      (queue : Table.lookup c.target s.queues = some ms) :
      Executes s c (s.setQueue c.target []) (.ok .purged)

theorem executes (s : Store) (c : Command) : Executes s c (s.execute c).1 (s.execute c).2 := by
  cases hr : Request.ofCommand c with
  | error e =>
      rw [s.execute_of_error (Invocation.ofCommand_of_error hr)]
      obtain ⟨⟨hk, hb⟩, rfl⟩ := Request.ofCommand_eq_error_iff.mp hr
      exact .missing hk hb
  | ok r =>
      have ht := Request.queue_of_ofCommand hr
      rw [s.execute_of_ok (Invocation.ofCommand_of_ok hr)]
      cases hq : Table.lookup c.target s.queues with
      | none =>
          rw [call_of_none (ht ▸ hq), ht]
          refine .unknown (fun hk hb => ?_) hq
          rw [Request.ofCommand_eq_error_iff.mpr ⟨⟨hk, hb⟩, rfl⟩] at hr
          cases hr
      | some ms =>
          rw [call_of_some (ht ▸ hq)]
          rcases Request.ofCommand_eq_ok hr with ⟨body, hk, hb, rfl⟩ | ⟨hk, rfl⟩ | ⟨hk, rfl⟩
          · exact .sent hk hb hq
          · by_cases hl : 1 ≤ c.limit ∧ c.limit ≤ receiveLimit
            · rw [serve, if_pos]
              · exact .received hk hq hl
              · exact hl
            · rw [serve, if_neg]
              · exact .rejected _ hk hq hl
              · exact hl
          · exact .purged hk hq

theorem executeAll_cons (s : Store) (c : Command) (cs : List Command) :
    s.executeAll (c :: cs) = (((s.execute c).1.executeAll cs).1,
      (s.execute c).2 :: ((s.execute c).1.executeAll cs).2) := rfl

theorem length_executeAll (s : Store) (cs : List Command) :
    (s.executeAll cs).2.length = cs.length := by
  induction cs generalizing s with
  | nil => rfl
  | cons c cs ih => rw [executeAll_cons, List.length_cons, List.length_cons, ih]

theorem executeAll_append (s : Store) (cs ds : List Command) :
    s.executeAll (cs ++ ds) = (((s.executeAll cs).1.executeAll ds).1,
      (s.executeAll cs).2 ++ ((s.executeAll cs).1.executeAll ds).2) := by
  induction cs generalizing s with
  | nil => rfl
  | cons c cs ih => rw [List.cons_append, executeAll_cons, executeAll_cons, ih, List.cons_append]

theorem executeAll_of_errors {cs : List Command}
    (h : ∀ c ∈ cs, ∃ e, Invocation.ofCommand c = .error e) (s t : Store) :
    s.executeAll cs = (s, (t.executeAll cs).2) := by
  induction cs with
  | nil => rfl
  | cons c cs ih =>
      obtain ⟨e, he⟩ := h c (List.mem_cons_self ..)
      have ih := ih (fun c hc => h c (List.mem_cons_of_mem _ hc))
      rw [executeAll_cons, executeAll_cons, s.execute_of_error he, t.execute_of_error he, ih]

theorem executeAll_append_of_errors (s : Store) (cs : List Command) {ds : List Command}
    (h : ∀ c ∈ ds, ∃ e, Invocation.ofCommand c = .error e) :
    s.executeAll (cs ++ ds) =
      ((s.executeAll cs).1, (s.executeAll cs).2 ++ (s.executeAll ds).2) := by
  rw [executeAll_append, executeAll_of_errors h _ s]

end Store

end QueueScript
