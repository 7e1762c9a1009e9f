import QueueScript.Proofs.Store.Delivery
import QueueScript.Proofs.Text.Numeral
/-!
Ids and receipt handles tell messages and deliveries apart, over all queues, past every purge and after
every timeout: ids count the sends, and a handle counts the deliveries of its message.
-/

namespace QueueScript

def Message.idOf (n : Nat) : String := "msg-" ++ toString n

theorem Message.id_eq_idOf (m : Message) : m.id = idOf m.number := rfl

theorem Message.idOf_inj {j k : Nat} (h : idOf j = idOf k) : j = k :=
  Message.id_inj (a := ⟨j, "", 0, none⟩) (b := ⟨k, "", 0, none⟩) |>.mp h

def Delivery.handle (id : String) (n : Nat) : String := id ++ "-r" ++ toString n

theorem Delivery.handle_inj {j k m n : Nat}
    (h : handle (Message.idOf j) m = handle (Message.idOf k) n) : j = k ∧ m = n := by
  have htext : Text.decimal j ++ '-' :: 'r' :: Text.decimal m =
      Text.decimal k ++ '-' :: 'r' :: Text.decimal n := by
    simpa [handle, Message.idOf, Text.decimal] using congrArg String.toList h
  obtain ⟨hid, hrest⟩ := Text.decimal_append_inj (by simp [Text.isDigit]) (by simp [Text.isDigit]) htext
  simp only [List.cons.injEq, true_and] at hrest
  exact ⟨hid, Text.decimal_inj hrest⟩

namespace Queue

theorem exists_taken (now timeout n : Nat) (q : Queue) :
    ∃ taken : Queue, taken.Sublist q ∧
      (receive now timeout n q).2 = taken.map (fun m => (m.delivered now timeout).delivery) := by
  fun_induction receive now timeout n q with
  | case1 => exact ⟨[], .slnil, rfl⟩
  | case2 => exact ⟨[], List.nil_sublist _, rfl⟩
  | case3 n m q _ m' q' ds hq ih =>
      obtain ⟨taken, hsub, hds⟩ := ih
      rw [hq] at hds
      exact ⟨m :: taken, hsub.cons_cons m, congrArg (m'.delivery :: ·) hds⟩
  | case4 n m q _ q' ds hq ih =>
      obtain ⟨taken, hsub, hds⟩ := ih
      rw [hq] at hds
      exact ⟨taken, hsub.cons m, hds⟩

theorem receive_ids_sublist (now timeout n : Nat) (q : Queue) :
    ((receive now timeout n q).2.map Delivery.messageId).Sublist (q.map Message.id) := by
  obtain ⟨taken, hsub, hds⟩ := exists_taken now timeout n q
  rw [hds, List.map_map]
  exact hsub.map Message.id

theorem exists_counted_of_mem_receive {now timeout n : Nat} {q : Queue} {m : Message}
    (hq : (q.map Message.id).Nodup) (hm : m ∈ (receive now timeout n q).1) :
    ∃ x ∈ q, m.number = x.number ∧ m.deliveries =
      x.deliveries + ((receive now timeout n q).2.map Delivery.messageId).count x.id := by
  have hids := receive_ids_sublist now timeout
  fun_induction receive now timeout n q with
  | case1 => cases hm
  | case2 => exact ⟨m, hm, rfl, by simp⟩
  | case4 n x q _ q' ds hrec ih =>
      obtain ⟨hx, hq⟩ := List.nodup_cons.mp hq
      have hids := hids (n + 1) q
      rw [hrec] at hids ih
      rcases List.mem_cons.mp hm with rfl | hm
      · have hnot : m.id ∉ ds.map Delivery.messageId := fun hmem => hx (hids.subset hmem)
        exact ⟨m, List.mem_cons_self .., rfl, by rw [List.count_eq_zero_of_not_mem hnot, Nat.add_zero]⟩
      · obtain ⟨y, hy, hnumber, hcount⟩ := ih hq hm
        exact ⟨y, List.mem_cons_of_mem _ hy, hnumber, hcount⟩
  | case3 n x q _ x' q' ds hrec ih =>
      obtain ⟨hx, hq⟩ := List.nodup_cons.mp hq
      have hids := hids n q
      rw [hrec] at hids ih
      rcases List.mem_cons.mp hm with rfl | hm
      · have hnot : x.id ∉ ds.map Delivery.messageId := fun hmem => hx (hids.subset hmem)
        refine ⟨x, List.mem_cons_self .., rfl, ?_⟩
        have hhead : x'.delivery.messageId = x.id := rfl
        rw [List.map_cons, hhead, List.count_cons_self, List.count_eq_zero_of_not_mem hnot]
        rfl
      · obtain ⟨y, hy, hnumber, hcount⟩ := ih hq hm
        have hne : x'.delivery.messageId ≠ y.id := by
          rintro heq
          apply hx
          have hhead : x'.delivery.messageId = x.id := rfl
          rw [← hhead, heq]
          exact List.mem_map_of_mem hy
        refine ⟨y, List.mem_cons_of_mem _ hy, hnumber, ?_⟩
        rw [List.map_cons, List.count_cons_of_ne hne]
        exact hcount

end Queue

theorem Store.mem_queue_setQueue {s : Store} {q t : String} {ms : Queue} {m : Message}
    (h : m ∈ (s.setQueue t ms).queue q) : (q = t ∧ m ∈ ms) ∨ m ∈ s.queue q := by
  by_cases hq : q = t
  · subst hq
    rw [queue_setQueue_self] at h
    exact .inl ⟨rfl, h⟩
  · rw [queue_setQueue_of_ne hq] at h
    exact .inr h

namespace Session

namespace Entry

def answer? (kind : Kind) : Entry → Option Response
  | .executed c (.ok r) => if c.kind = kind then some r else none
  | _ => none

def deliveries : Entry → List Delivery
  | .executed _ (.ok (.received ds)) => ds
  | _ => []

end Entry

def deliveries (h : List Entry) : List Delivery := h.flatMap Entry.deliveries

theorem deliveries_concat (h : List Entry) (e : Entry) :
    deliveries (h ++ [e]) = deliveries h ++ e.deliveries := by
  rw [deliveries, List.flatMap_append, List.flatMap_singleton, deliveries]

def times (id : String) (ds : List Delivery) : Nat := (ds.map Delivery.messageId).count id

theorem times_append (id : String) (ds es : List Delivery) :
    times id (ds ++ es) = times id ds + times id es := by
  rw [times, List.map_append, List.count_append, times, times]

theorem nodup_ids (acts : List Act) (q : String) :
    (((after {} acts).queue q).map Message.id).Nodup := by
  have hnumbers : (((after {} acts).queue q).map Message.number).Nodup :=
    (numbered acts q).rising.imp Nat.ne_of_lt
  rw [List.Nodup, List.pairwise_map] at hnumbers ⊢
  exact hnumbers.imp (fun hne hid => hne (Message.id_inj.mp hid))

theorem Executes.next_and_answer {s s' : Store} {c : Command} {r : Except ExecuteError Response}
    (h : s.Executes c s' r) :
    ((Entry.executed c r).answer? .send = none ∧ s'.next = s.next) ∨
      ((Entry.executed c r).answer? .send = some (.sent (Message.idOf s.next)) ∧
        s'.next = s.next + 1) := by
  cases h with
  | missing | unknown | rejected => exact .inl ⟨rfl, rfl⟩
  | sent hk => exact .inr ⟨by simp only [Entry.answer?, hk, if_true]; rfl, rfl⟩
  | received hk | purged hk => exact .inl ⟨by simp [Entry.answer?, hk], rfl⟩

theorem act_next_and_answer (s : Store) (a : Act) :
    ((act s a).2.answer? .send = none ∧ (act s a).1.next = s.next) ∨
      ((act s a).2.answer? .send = some (.sent (Message.idOf s.next)) ∧
        (act s a).1.next = s.next + 1) := by
  cases a with
  | create q =>
      refine .inl ⟨rfl, ?_⟩
      rw [act, Store.create]
      split <;> rfl
  | execute c => exact Executes.next_and_answer (s.executes c)
  | wait time => exact .inl ⟨rfl, rfl⟩

theorem answers_of_sends (acts : List Act) :
    ∃ n, (after {} acts).next = n + 1 ∧
      (history {} acts).filterMap (Entry.answer? .send) =
        (List.range' 1 n).map (fun k => .sent (Message.idOf k)) := by
  induction acts using List.reverseRecOn with
  | nil => exact ⟨0, rfl, rfl⟩
  | append_singleton acts a ih =>
      obtain ⟨n, hnext, hanswers⟩ := ih
      rw [after_concat, history_concat, List.filterMap_append, hanswers]
      rcases act_next_and_answer (after {} acts) a with ⟨hnone, hsame⟩ | ⟨hsome, hmore⟩
      · exact ⟨n, hsame.trans hnext, by simp [hnone]⟩
      · refine ⟨n + 1, by rw [hmore, hnext], ?_⟩
        rw [List.range'_1_concat, List.map_append]
        simp [hsome, hnext, Nat.add_comm 1]

/-- Each handle counts the deliveries of its message so far. -/
def Handled (ds : List Delivery) : Prop :=
  ∀ past d later, ds = past ++ d :: later →
    d.receiptHandle = Delivery.handle d.messageId (times d.messageId past + 1)

theorem Handled.append {ds es : List Delivery} (h : Handled ds)
    (hes : ∀ past d later, es = past ++ d :: later →
      d.receiptHandle = Delivery.handle d.messageId (times d.messageId (ds ++ past) + 1)) :
    Handled (ds ++ es) := by
  intro past d later heq
  rcases List.append_eq_append_iff.mp heq with ⟨x, rfl, hx⟩ | ⟨x, rfl, hx⟩
  · exact hes x d later hx
  · cases x with
    | nil =>
        have hes := hes [] d later hx.symm
        rwa [List.append_nil, List.append_nil] at hes
    | cons y x =>
        obtain ⟨rfl, _⟩ := List.cons.inj hx
        exact h past d x rfl

theorem Handled.nodup {ds : List Delivery} (h : Handled ds)
    (hid : ∀ d ∈ ds, ∃ k, d.messageId = Message.idOf k) :
    (ds.map Delivery.receiptHandle).Nodup := by
  induction ds using List.reverseRecOn with
  | nil => exact List.nodup_nil
  | append_singleton ds d ih =>
      have hds : Handled ds := fun past x later heq => h past x (later ++ [d]) (by rw [heq]; simp)
      have ih := ih hds (fun x hx => hid x (List.mem_append_left _ hx))
      rw [List.map_append, List.nodup_append]
      refine ⟨ih, by simp, ?_⟩
      intro a ha b hb hab
      obtain ⟨x, hx, rfl⟩ := List.mem_map.mp ha
      obtain rfl : b = d.receiptHandle := by simpa using hb
      obtain ⟨past, later, rfl⟩ := List.append_of_mem hx
      obtain ⟨j, hj⟩ := hid x (List.mem_append_left _ hx)
      obtain ⟨k, hk⟩ := hid d (by simp)
      rw [hds past x later rfl, h (past ++ x :: later) d [] rfl, hj, hk] at hab
      obtain ⟨rfl, htimes⟩ := Delivery.handle_inj hab
      -- the later of the two deliveries counts the earlier one
      have hcount : times (Message.idOf j) (x :: later) ≠ 0 := by
        rw [times, List.map_cons, hj, List.count_cons_self]
        exact Nat.succ_ne_zero _
      rw [times_append] at htimes
      omega

structure Counted (s : Store) (ds : List Delivery) : Prop where
  apart : ∀ q t, ∀ m ∈ s.queue q, ∀ n ∈ s.queue t, m.number = n.number → q = t
  past : ∀ d ∈ ds, ∃ k < s.next, d.messageId = Message.idOf k
  counted : ∀ q, ∀ m ∈ s.queue q, m.deliveries = times m.id ds
  handled : Handled ds

namespace Counted

variable {s s' : Store} {ds : List Delivery} {t : String}

theorem none_delivered {e : Entry} (he : e.deliveries = []) (h : Counted s ds) :
    Counted s (ds ++ e.deliveries) := by
  rwa [he, List.append_nil]

theorem shrink (h : Counted s ds) (hqueue : ∀ q, ∀ m ∈ s'.queue q, m ∈ s.queue q)
    (hnext : s'.next = s.next) : Counted s' ds where
  apart q t m hm n hn := h.apart q t m (hqueue q m hm) n (hqueue t n hn)
  past d hd := by
    rw [hnext]
    exact h.past d hd
  counted q m hm := h.counted q m (hqueue q m hm)
  handled := h.handled

theorem send {m : Message} (h : Counted s ds) (hbelow : ∀ q, ∀ x ∈ s.queue q, x.number < s.next)
    (hqueue : ∀ q, ∀ x ∈ s'.queue q, x ∈ s.queue q ∨ (q = t ∧ x = m)) (hm : m.number = s.next)
    (hzero : m.deliveries = 0) (hnext : s'.next = s.next + 1) : Counted s' ds where
  apart q r x hx y hy hxy := by
    rcases hqueue q x hx with hx | ⟨rfl, rfl⟩ <;> rcases hqueue r y hy with hy | ⟨rfl, rfl⟩
    · exact h.apart q r x hx y hy hxy
    · exact absurd (hbelow q x hx) (by omega)
    · exact absurd (hbelow r y hy) (by omega)
    · rfl
  past d hd := by
    obtain ⟨k, hk, hid⟩ := h.past d hd
    exact ⟨k, by omega, hid⟩
  counted q x hx := by
    rcases hqueue q x hx with hx | ⟨rfl, rfl⟩
    · exact h.counted q x hx
    · have hnew : x.id ∉ ds.map Delivery.messageId := by
        intro hmem
        obtain ⟨d, hd, hid⟩ := List.mem_map.mp hmem
        obtain ⟨k, hk, hold⟩ := h.past d hd
        have hnumber := Message.idOf_inj (hold.symm.trans (hid.trans x.id_eq_idOf))
        omega
      rw [hzero, times, List.count_eq_zero_of_not_mem hnew]
  handled := h.handled

theorem receive {now timeout n : Nat} (h : Counted s ds)
    (hbelow : ∀ m ∈ s.queue t, m.number < s.next) (hnodup : ((s.queue t).map Message.id).Nodup)
    (hself : s'.queue t = ((s.queue t).receive now timeout n).1)
    (hother : ∀ q, q ≠ t → s'.queue q = s.queue q) (hnext : s'.next = s.next) :
    Counted s' (ds ++ ((s.queue t).receive now timeout n).2) := by
  have hids := Queue.receive_ids_sublist now timeout n (s.queue t)
  have hfrom : ∀ q, ∀ m ∈ s'.queue q, ∃ x ∈ s.queue q, m.number = x.number ∧
      m.deliveries = x.deliveries + times x.id ((s.queue t).receive now timeout n).2 := by
    intro q m hm
    by_cases hq : q = t
    · subst hq
      rw [hself] at hm
      exact Queue.exists_counted_of_mem_receive hnodup hm
    · rw [hother q hq] at hm
      have hnot : m.id ∉ ((s.queue t).receive now timeout n).2.map Delivery.messageId := by
        intro hmem
        obtain ⟨x, hx, hid⟩ := List.mem_map.mp (hids.subset hmem)
        exact hq (h.apart q t m hm x hx (Message.id_inj.mp hid).symm)
      exact ⟨m, hm, rfl, by rw [times, List.count_eq_zero_of_not_mem hnot, Nat.add_zero]⟩
  refine ⟨?_, ?_, ?_, h.handled.append ?_⟩
  · intro q r m hm n hn hmn
    obtain ⟨x, hx, hmx, _⟩ := hfrom q m hm
    obtain ⟨y, hy, hny, _⟩ := hfrom r n hn
    exact h.apart q r x hx y hy (by rw [← hmx, hmn, hny])
  · intro d hd
    rw [hnext]
    rcases List.mem_append.mp hd with hd | hd
    · exact h.past d hd
    · obtain ⟨m, hm, hid⟩ := List.mem_map.mp (hids.subset (List.mem_map_of_mem hd))
      exact ⟨m.number, hbelow m hm, hid.symm⟩
  · intro q m hm
    obtain ⟨x, hx, hnumber, hdeliveries⟩ := hfrom q m hm
    rw [hdeliveries, h.counted q x hx, ← times_append, Message.id_inj.mpr hnumber]
  · intro past d later heq
    obtain ⟨taken, hsub, htaken⟩ := Queue.exists_taken now timeout n (s.queue t)
    obtain ⟨m, hm, rfl⟩ : ∃ m ∈ taken, (m.delivered now timeout).delivery = d := by
      rw [← List.mem_map, ← htaken, heq]
      simp
    have hfresh : m.id ∉ past.map Delivery.messageId := by
      have hlist := hids.nodup hnodup
      rw [heq, List.map_append, List.map_cons, List.nodup_append] at hlist
      intro hmem
      exact hlist.2.2 _ hmem _ (List.mem_cons_self ..) rfl
    have htimes : times m.id (ds ++ past) = m.deliveries := by
      rw [times_append, ← h.counted t m (hsub.subset hm), times,
        List.count_eq_zero_of_not_mem hfresh, Nat.add_zero]
    have hid : (m.delivered now timeout).delivery.messageId = m.id := rfl
    rw [hid, htimes]
    rfl

theorem executes {c : Command} {r : Except ExecuteError Response} (h : Counted s ds)
    (hbelow : ∀ q, ∀ m ∈ s.queue q, m.number < s.next)
    (hnodup : ∀ q, ((s.queue q).map Message.id).Nodup) (he : s.Executes c s' r) :
    Counted s' (ds ++ (Entry.executed c r).deliveries) := by
  cases he with
  | missing | unknown | rejected => exact Counted.none_delivered rfl h
  | @sent ms body _ _ hq =>
      apply Counted.none_delivered rfl
      refine h.send (t := c.target) (m := ⟨s.next, body.compact, 0, none⟩) hbelow ?_ rfl rfl rfl
      intro q x hx
      rcases Store.mem_queue_setQueue hx with ⟨rfl, hnew⟩ | hold
      · rw [Store.queue_of_lookup hq]
        exact (List.mem_append.mp hnew).imp id (fun hlast => ⟨rfl, List.mem_singleton.mp hlast⟩)
      · exact .inl hold
  | received _ hq =>
      rw [← Store.queue_of_lookup hq]
      exact h.receive (hbelow c.target) (hnodup c.target) (Store.queue_setQueue_self s _ _)
        (fun q hne => Store.queue_setQueue_of_ne hne s _) rfl
  | purged =>
      apply Counted.none_delivered rfl
      refine h.shrink ?_ rfl
      intro q m hm
      rcases Store.mem_queue_setQueue hm with ⟨_, hm⟩ | hm
      · cases hm
      · exact hm

end Counted

theorem counted (acts : List Act) : Counted (after {} acts) (deliveries (history {} acts)) := by
  induction acts using List.reverseRecOn with
  | nil =>
      have hempty (q : String) : (after {} []).queue q = [] := rfl
      constructor <;> simp [hempty, history, deliveries, Handled]
  | append_singleton acts a ih =>
      rw [after_concat, history_concat, deliveries_concat]
      cases a with
      | create t =>
          apply Counted.none_delivered rfl
          refine ih.shrink ?_ ?_
          · intro q m hm
            rwa [act, Store.queue_create] at hm
          · rw [act, Store.create]
            split <;> rfl
      | execute c =>
          refine ih.executes ?_ ?_ ((after {} acts).executes c)
          · intro q m hm
            exact (numbered acts q).below _ (List.mem_map_of_mem hm)
          · exact nodup_ids acts
      | wait time =>
          apply Counted.none_delivered rfl
          exact ih.shrink (fun _ _ hm => hm) rfl

/-- Ids are given out in order and never again, and so are the handles of every message, as long as 64
bits are enough to count the sends and 32 bits to count the deliveries of a message. -/
theorem never_reuses_ids {acts : List Act}
    (hsends : ((history {} acts).filterMap (Entry.answer? .send)).length < UInt64.size)
    (hdeliveries : ∀ id,
      ((deliveries (history {} acts)).map Delivery.messageId).count id < UInt32.size) :
    (∃ n < UInt64.size, (history {} acts).filterMap (Entry.answer? .send) =
        (List.range' 1 n).map (fun k => .sent ("msg-" ++ toString k))) ∧
      (∀ q, ∃ numbers : List Nat, numbers.Pairwise (· < ·) ∧
        ((after {} acts).queue q).map Message.id = numbers.map (fun k => "msg-" ++ toString k)) ∧
      (∀ past d later, deliveries (history {} acts) = past ++ d :: later →
        ∃ j < UInt32.size, j = (past.map Delivery.messageId).count d.messageId + 1 ∧
          d.receiptHandle = d.messageId ++ "-r" ++ toString j) ∧
      ((history {} acts).filterMap (Entry.answer? .send)).Nodup ∧
      ((deliveries (history {} acts)).map Delivery.receiptHandle).Nodup ∧
      ∀ q, ∀ m ∈ (after {} acts).queue q, m.number < UInt64.size ∧ m.deliveries < UInt32.size := by
  obtain ⟨n, hnext, hanswers⟩ := answers_of_sends acts
  have hcounted := counted acts
  have hn : n < UInt64.size := by
    rwa [hanswers, List.length_map, List.length_range'] at hsends
  refine ⟨⟨n, hn, hanswers⟩, ?_, ?_, ?_, hcounted.handled.nodup ?_, ?_⟩
  · intro q
    refine ⟨_, (numbered acts q).rising, ?_⟩
    rw [List.map_map]
    rfl
  · intro past d later heq
    refine ⟨_, ?_, rfl, hcounted.handled past d later heq⟩
    have hbound := hdeliveries d.messageId
    rw [heq, List.map_append, List.map_cons, List.count_append, List.count_cons_self] at hbound
    omega
  · rw [hanswers]
    apply List.Pairwise.map _ _ List.nodup_range'
    intro j k hne hjk
    exact hne (Message.idOf_inj (Response.sent.inj hjk))
  · intro d hd
    obtain ⟨k, _, hid⟩ := hcounted.past d hd
    exact ⟨k, hid⟩
  · intro q m hm
    constructor
    · have hbelow := (numbered acts q).below _ (List.mem_map_of_mem hm)
      omega
    · rw [hcounted.counted q m hm]
      exact hdeliveries m.id

theorem never_reuses_ids_received_after_timeout :
    let send (q : String) (n : Nat) : Act :=
      .execute { Command.bare .send q with body := some (.ofNat n) }
    let take : Act := .execute
      { Command.bare .receive "q" with maxMessages := some 1, visibilityTimeout := some 1 }
    let acts : List Act := [.create "q", .create "r", send "q" 1, send "lost" 2, send "q" 3, take, take,
      .wait Store.second, take, .execute (Command.bare .purge "q"), send "q" 4, take]
    let first : List Delivery := [⟨"msg-1", "msg-1-r1", "1"⟩, ⟨"msg-2", "msg-2-r1", "3"⟩]
    let again : Delivery := ⟨"msg-1", "msg-1-r2", "1"⟩
    (history {} acts).filterMap (Entry.answer? .send) = [.sent "msg-1", .sent "msg-2", .sent "msg-3"] ∧
      (∀ id, ((deliveries (history {} acts)).map Delivery.messageId).count id < UInt32.size) ∧
      deliveries (history {} acts) = first ++ again :: [⟨"msg-3", "msg-3-r1", "4"⟩] ∧
      again.receiptHandle = "msg-1" ++ "-r" ++ toString 2 ∧
      ((history {} acts).filterMap (Entry.answer? .send)).Nodup ∧
      ((deliveries (history {} acts)).map Delivery.receiptHandle).Nodup := by
  intro send take acts first again
  have hanswers : (history {} acts).filterMap (Entry.answer? .send) =
      [.sent "msg-1", .sent "msg-2", .sent "msg-3"] := by decide
  have hdeliveries : deliveries (history {} acts) = first ++ again :: [⟨"msg-3", "msg-3-r1", "4"⟩] := by
    decide
  have hfew : ∀ id, ((deliveries (history {} acts)).map Delivery.messageId).count id < UInt32.size := by
    intro id
    refine Nat.lt_of_le_of_lt List.count_le_length ?_
    rw [hdeliveries]
    decide
  obtain ⟨_, _, hhandle, hids, hhandles, _⟩ := never_reuses_ids (by rw [hanswers]; decide) hfew
  obtain ⟨_, _, rfl, hagain⟩ := hhandle first again _ hdeliveries
  exact ⟨hanswers, hfew, hdeliveries, hagain, hids, hhandles⟩

end Session

end QueueScript
