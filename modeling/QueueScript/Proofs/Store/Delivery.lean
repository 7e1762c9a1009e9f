import Mathlib.Data.List.DropRight
import QueueScript.Proofs.Store.Session
/-!
A queue hands out its messages in the order in which they were sent. As long as no timeout is over, the
messages that are hidden stand at its front: a cursor between them and the others is all that
receiving moves.
-/

namespace QueueScript

def Message.item (m : Message) : String × String := (m.id, m.body)

def Delivery.item (d : Delivery) : String × String := (d.messageId, d.body)

theorem Message.id_inj {a b : Message} : a.id = b.id ↔ a.number = b.number := by
  constructor
  · intro h
    have hrepr : a.number.repr = b.number.repr := (String.append_right_inj _).mp h
    have hdigits : Nat.toDigits 10 a.number = Nat.toDigits 10 b.number := by
      simpa using congrArg String.toList hrepr
    rw [← Nat.ofDigitChars_toDigits (b := 10) (n := a.number) (by decide) (by decide), hdigits,
      Nat.ofDigitChars_toDigits (by decide) (by decide)]
  · intro h
    rw [id, id, h]

theorem Message.isVisible_of_none {m : Message} (h : m.hiddenUntil = none) (now : Nat) :
    m.isVisible now = true := by
  rw [isVisible, h, Option.all_none]

theorem Message.isVisible_of_lt {m : Message} {t now : Nat} (h : m.hiddenUntil = some t)
    (hnow : now < t) : m.isVisible now = false := by
  rw [isVisible, h, Option.all_some, decide_eq_false_iff_not]
  exact Nat.not_le.mpr hnow

namespace Queue

variable {now timeout : Nat} {front back : Queue}

theorem receive_append_of_hidden (n : Nat) (h : ∀ m ∈ front, m.isVisible now = false) :
    receive now timeout n (front ++ back) =
      (front ++ (receive now timeout n back).1, (receive now timeout n back).2) := by
  induction front with
  | nil => rfl
  | cons m front ih =>
      cases n with
      | zero => cases back <;> rfl
      | succ n =>
          have hm : m.isVisible now = false := h m (List.mem_cons_self ..)
          have hfront := ih (fun x hx => h x (List.mem_cons_of_mem _ hx))
          simp [receive, hm, hfront]

theorem receive_of_visible (n : Nat) (h : ∀ m ∈ back, m.isVisible now = true) :
    receive now timeout n back =
      ((back.take n).map (Message.delivered now timeout) ++ back.drop n,
        (back.take n).map (fun m => (m.delivered now timeout).delivery)) := by
  induction back generalizing n with
  | nil => cases n <;> rfl
  | cons m back ih =>
      cases n with
      | zero => rfl
      | succ n =>
          have hm : m.isVisible now = true := h m (List.mem_cons_self ..)
          have hback := ih n (fun x hx => h x (List.mem_cons_of_mem _ hx))
          simp [receive, hm, hback]

theorem map_receive {α : Type} {f : Message → α} (hf : ∀ m, f (m.delivered now timeout) = f m)
    (n : Nat) (q : Queue) : (receive now timeout n q).1.map f = q.map f := by
  fun_induction receive now timeout n q with
  | case1 => rfl
  | case2 => rfl
  | case3 n m q hm m' q' ds hq ih => simpa [hq, m', hf] using ih
  | case4 n m q hm q' ds hq ih => simpa [hq] using ih

theorem exists_of_mem_receive {n : Nat} {q : Queue} {m : Message}
    (h : m ∈ (receive now timeout n q).1) : ∃ x ∈ q, m = x ∨ m = x.delivered now timeout := by
  fun_induction receive now timeout n q with
  | case1 => cases h
  | case2 => exact ⟨m, h, .inl rfl⟩
  | case3 n x q _ x' q' ds hq ih =>
      rw [hq] at ih
      rcases List.mem_cons.mp h with rfl | h
      · exact ⟨x, List.mem_cons_self .., .inr rfl⟩
      · obtain ⟨y, hy, hm⟩ := ih h
        exact ⟨y, List.mem_cons_of_mem _ hy, hm⟩
  | case4 n x q _ q' ds hq ih =>
      rw [hq] at ih
      rcases List.mem_cons.mp h with rfl | h
      · exact ⟨m, List.mem_cons_self .., .inl rfl⟩
      · obtain ⟨y, hy, hm⟩ := ih h
        exact ⟨y, List.mem_cons_of_mem _ hy, hm⟩

end Queue

namespace Session

namespace Entry

def purges (q : String) : Entry → Bool
  | .executed c (.ok .purged) => c.target == q
  | _ => false

def sent? (q : String) : Entry → Option (String × String)
  | .executed c (.ok (.sent id)) =>
      if c.target = q then c.body.map (fun body => (id, body.compact)) else none
  | _ => none

def handed (q : String) : Entry → List (String × String)
  | .executed c (.ok (.received ds)) =>
      if c.target = q ∧ c.hides = true then ds.map Delivery.item else []
  | _ => []

end Entry

def sincePurge (q : String) (h : List Entry) : List Entry := h.rtakeWhile (fun e => !e.purges q)

def sent (q : String) (h : List Entry) : List (String × String) :=
  (sincePurge q h).filterMap (Entry.sent? q)

def handed (q : String) (h : List Entry) : List (String × String) :=
  (sincePurge q h).flatMap (Entry.handed q)

theorem sincePurge_concat {q : String} {e : Entry} (h : List Entry) (he : e.purges q = false) :
    sincePurge q (h ++ [e]) = sincePurge q h ++ [e] :=
  List.rtakeWhile_concat_pos _ _ _ (by simp [he])

theorem sincePurge_concat_of_purges {q : String} {e : Entry} (h : List Entry)
    (he : e.purges q = true) : sincePurge q (h ++ [e]) = [] :=
  List.rtakeWhile_concat_neg _ _ _ (by simp [he])

theorem sent_concat {q : String} {e : Entry} (h : List Entry) (he : e.purges q = false) :
    sent q (h ++ [e]) = sent q h ++ (e.sent? q).toList := by
  rw [sent, sincePurge_concat h he, List.filterMap_append, sent]
  cases hs : e.sent? q <;> simp [hs]

theorem handed_concat {q : String} {e : Entry} (h : List Entry) (he : e.purges q = false) :
    handed q (h ++ [e]) = handed q h ++ e.handed q := by
  rw [handed, sincePurge_concat h he, List.flatMap_append, handed, List.flatMap_singleton]

inductive Touches (q : String) (s : Store) : Store → Entry → Prop where
  | quiet {s' : Store} {e : Entry} (queue : s'.queue q = s.queue q) (next : s.next ≤ s'.next)
      (purges : e.purges q = false) (sent : e.sent? q = none)
      (received : ∀ c ds, e = .executed c (.ok (.received ds)) → c.target ≠ q) : Touches q s s' e
  | sent {s' : Store} {c : Command} {body : Json} (target : c.target = q)
      (content : c.body = some body)
      (queue : s'.queue q = s.queue q ++ [⟨s.next, body.compact, 0, none⟩])
      (next : s'.next = s.next + 1) :
      Touches q s s' (.executed c (.ok (.sent (Message.id ⟨s.next, body.compact, 0, none⟩))))
  | received {s' : Store} {c : Command} (target : c.target = q)
      (queue : s'.queue q = ((s.queue q).receive s.now c.timeout c.limit).1) (next : s'.next = s.next) :
      Touches q s s' (.executed c (.ok (.received ((s.queue q).receive s.now c.timeout c.limit).2)))
  | purged {s' : Store} {c : Command} (target : c.target = q) (queue : s'.queue q = [])
      (next : s'.next = s.next) : Touches q s s' (.executed c (.ok .purged))

theorem touches_of_executes {s s' : Store} {c : Command} {r : Except ExecuteError Response}
    (q : String) (h : s.Executes c s' r) : Touches q s s' (.executed c r) := by
  by_cases ht : c.target = q
  · subst ht
    cases h with
    | missing | unknown | rejected => exact .quiet rfl (Nat.le_refl _) rfl rfl (by simp)
    | sent _ hb hq =>
        refine .sent rfl hb ?_ rfl
        rw [Store.queue_of_lookup hq]
        exact Store.queue_setQueue_self s _ _
    | received _ hq =>
        rw [← Store.queue_of_lookup hq]
        exact .received rfl (Store.queue_setQueue_self s _ _) rfl
    | purged => exact .purged rfl (Store.queue_setQueue_self s _ _) rfl
  · have hne : q ≠ c.target := Ne.symm ht
    cases h with
    | missing | unknown | rejected => exact .quiet rfl (Nat.le_refl _) rfl rfl (by simp)
    | sent =>
        refine .quiet (Store.queue_setQueue_of_ne hne s _) (Nat.le_succ _) rfl ?_ (by simp)
        simp only [Entry.sent?, ht, if_false]
    | received =>
        refine .quiet (Store.queue_setQueue_of_ne hne s _) (Nat.le_refl _) rfl rfl ?_
        rintro _ _ ⟨⟩
        exact ht
    | purged =>
        refine .quiet (Store.queue_setQueue_of_ne hne s _) (Nat.le_refl _) ?_ rfl (by simp)
        simp only [Entry.purges, beq_eq_false_iff_ne, ne_eq, ht, not_false_eq_true]

theorem act_touches (q : String) (s : Store) (a : Act) : Touches q s (act s a).1 (act s a).2 := by
  cases a with
  | create t =>
      refine .quiet (s.queue_create q t) ?_ rfl rfl (by simp [act])
      rw [act, Store.create]
      split <;> exact Nat.le_refl _
  | execute c => exact touches_of_executes q (s.executes c)
  | wait time => exact .quiet rfl (Nat.le_refl _) rfl rfl (by simp [act])

theorem Entry.handed_of_not_received {q : String} {e : Entry}
    (h : ∀ c ds, e = .executed c (.ok (.received ds)) → c.target ≠ q) : e.handed q = [] := by
  match e, h with
  | .executed c (.ok (.received ds)), h => simp [Entry.handed, h c ds rfl]
  | .executed _ (.ok (.sent _)), _ => rfl
  | .executed _ (.ok .purged), _ => rfl
  | .executed _ (.error _), _ => rfl
  | .created _, _ => rfl
  | .waited _, _ => rfl

def Act.time : Act → Nat
  | .wait time => time
  | _ => 0

theorem now_act (s : Store) (a : Act) : (act s a).1.now = s.now + a.time := by
  cases a with
  | create q =>
      rw [act, Store.create]
      split <;> rfl
  | execute c =>
      have h := s.executes c
      change (s.execute c).1.now = s.now
      generalize (s.execute c).1 = s', (s.execute c).2 = r at h
      cases h <;> rfl
  | wait time => rfl

def Hiding (q : String) (s : Store) : Prop :=
  ∀ m ∈ s.queue q, ∀ t, m.hiddenUntil = some t → s.now < t

/-- In the course of the acts, no timeout of a message in the queue is over. None is when no time passes
(`lasting_of_still`). -/
def Lasting (q : String) (acts : List Act) : Prop :=
  ∀ before, before <+: acts → Hiding q (after {} before)

theorem Lasting.of_prefix {q : String} {acts before : List Act} (h : Lasting q acts)
    (hbefore : before <+: acts) : Lasting q before :=
  fun first hfirst => h first (hfirst.trans hbefore)

theorem Hiding.touch {q : String} {s s' : Store} {e : Entry} (h : Hiding q s)
    (he : Touches q s s' e) (hnow : s'.now = s.now) : Hiding q s' := by
  intro m hm t ht
  rw [hnow]
  cases he with
  | quiet hq =>
      rw [hq] at hm
      exact h m hm t ht
  | sent _ _ hq =>
      rw [hq, List.mem_append] at hm
      rcases hm with hm | hm
      · exact h m hm t ht
      · rw [List.mem_singleton.mp hm] at ht
        cases ht
  | @received c _ hq =>
      rw [hq] at hm
      obtain ⟨x, hx, rfl | rfl⟩ := Queue.exists_of_mem_receive hm
      · exact h m hx t ht
      · rw [Message.delivered] at ht
        split at ht
        · exact h x hx t ht
        · obtain rfl := Option.some.inj ht
          omega
  | purged _ hq =>
      rw [hq] at hm
      cases hm

theorem lasting_of_still {acts : List Act} (q : String) (h : ∀ a ∈ acts, a.time = 0) :
    Lasting q acts := by
  rintro before ⟨later, rfl⟩
  induction before using List.reverseRecOn generalizing later with
  | nil => exact fun m hm => absurd hm List.not_mem_nil
  | append_singleton before a ih =>
      rw [List.append_assoc] at h
      have ha : a.time = 0 := h a (by simp)
      have hnow := now_act (after {} before) a
      rw [ha, Nat.add_zero] at hnow
      rw [after_concat]
      exact (ih ([a] ++ later) h).touch (act_touches q _ a) hnow

/-- The messages of a queue, with the cursor between those that were handed out for good and the
others. -/
structure Tracks (q : String) (s : Store) (h : List Entry) (front back : Queue) : Prop where
  queue : s.queue q = front ++ back
  hidden : ∀ m ∈ front, ∃ t, m.hiddenUntil = some t
  visible : ∀ m ∈ back, m.hiddenUntil = none
  gone : front.map Message.item = handed q h
  all : (front ++ back).map Message.item = sent q h

namespace Tracks

variable {q : String} {s s' : Store} {h : List Entry} {front back : Queue}

theorem receive (t : Tracks q s h front back) (hs : Hiding q s) (timeout n : Nat) :
    (s.queue q).receive s.now timeout n =
      (front ++ ((back.take n).map (Message.delivered s.now timeout) ++ back.drop n),
        (back.take n).map (fun m => (m.delivered s.now timeout).delivery)) := by
  have hfront : ∀ m ∈ front, m.isVisible s.now = false := by
    intro m hm
    obtain ⟨u, hu⟩ := t.hidden m hm
    refine Message.isVisible_of_lt hu (hs m ?_ u hu)
    rw [t.queue]
    exact List.mem_append_left back hm
  have hback : ∀ m ∈ back, m.isVisible s.now = true :=
    fun m hm => Message.isVisible_of_none (t.visible m hm) _
  rw [t.queue, Queue.receive_append_of_hidden n hfront, Queue.receive_of_visible n hback]

theorem mem_queue (t : Tracks q s h front back) {m : Message} (hm : m ∈ back) : m ∈ s.queue q := by
  rw [t.queue]
  exact List.mem_append_right front hm

theorem drop_sent (t : Tracks q s h front back) :
    (sent q h).drop (handed q h).length = back.map Message.item := by
  rw [← t.gone, ← t.all, List.map_append, List.drop_left]

theorem touch_received {c : Command} (t : Tracks q s h front back) (hs : Hiding q s)
    (ht : c.target = q) (hq : s'.queue q = ((s.queue q).receive s.now c.timeout c.limit).1) :
    ∃ front' back', Tracks q s'
      (h ++ [.executed c (.ok (.received ((s.queue q).receive s.now c.timeout c.limit).2))])
      front' back' := by
  have hall : (s'.queue q).map Message.item = sent q h := by
    rw [hq, Queue.map_receive (fun _ => rfl), t.queue, t.all]
  rw [t.receive hs] at hq ⊢
  dsimp only at hq ⊢
  cases hh : c.hides with
  | true =>
      have hlong : c.timeout ≠ 0 := c.hides_iff.mp hh
      refine ⟨front ++ (back.take c.limit).map (Message.delivered s.now c.timeout),
        back.drop c.limit, ?_, ?_, ?_, ?_, ?_⟩
      · rw [hq, List.append_assoc]
      · intro m hm
        rcases List.mem_append.mp hm with hm | hm
        · exact t.hidden m hm
        · obtain ⟨x, _, rfl⟩ := List.mem_map.mp hm
          exact ⟨_, if_neg hlong⟩
      · intro m hm
        exact t.visible m (List.mem_of_mem_drop hm)
      · rw [handed_concat h rfl, List.map_append, t.gone, Entry.handed, if_pos ⟨ht, hh⟩,
          List.map_map, List.map_map]
        rfl
      · rw [sent_concat h rfl, List.append_assoc, ← hq, hall]
        exact (List.append_nil _).symm
  | false =>
      have hzero : c.timeout = 0 := by
        by_contra hlong
        simp [c.hides_iff.mpr hlong] at hh
      refine ⟨front, (back.take c.limit).map (Message.delivered s.now c.timeout) ++
        back.drop c.limit, hq, t.hidden, ?_, ?_, ?_⟩
      · intro m hm
        rcases List.mem_append.mp hm with hm | hm
        · obtain ⟨x, hx, rfl⟩ := List.mem_map.mp hm
          simp [Message.delivered, hzero, t.visible x (List.mem_of_mem_take hx)]
        · exact t.visible m (List.mem_of_mem_drop hm)
      · rw [handed_concat h rfl, t.gone]
        simp [Entry.handed, hh]
      · rw [sent_concat h rfl, ← hq, hall]
        exact (List.append_nil _).symm

theorem touch {e : Entry} (t : Tracks q s h front back) (hs : Hiding q s)
    (he : Touches q s s' e) : ∃ front' back', Tracks q s' (h ++ [e]) front' back' := by
  cases he with
  | quiet hq _ hp hsent hr =>
      refine ⟨front, back, hq.trans t.queue, t.hidden, t.visible, ?_, ?_⟩
      · rw [handed_concat h hp, Entry.handed_of_not_received hr, List.append_nil, t.gone]
      · rw [sent_concat h hp, hsent, Option.toList_none, List.append_nil, t.all]
  | @sent c body ht hb hq _ =>
      refine ⟨front, back ++ [⟨s.next, body.compact, 0, none⟩], ?_, t.hidden, ?_, ?_, ?_⟩
      · rw [hq, t.queue, List.append_assoc]
      · intro m hm
        rcases List.mem_append.mp hm with hm | hm
        · exact t.visible m hm
        · rw [List.mem_singleton.mp hm]
      · rw [handed_concat h rfl, t.gone]
        exact (List.append_nil _).symm
      · rw [sent_concat h rfl, ← t.all]
        simp [Entry.sent?, ht, hb, Message.item]
  | received ht hq _ => exact t.touch_received hs ht hq
  | purged ht hq _ =>
      have hsince := sincePurge_concat_of_purges h (q := q) (e := .executed _ (.ok .purged))
        (beq_iff_eq.mpr ht)
      refine ⟨[], [], hq, by simp, by simp, ?_, ?_⟩
      · rw [handed, hsince]
        rfl
      · rw [sent, hsince]
        rfl

end Tracks

theorem exists_tracks {acts : List Act} {q : String} (hacts : Lasting q acts) :
    ∃ front back, Tracks q (after {} acts) (history {} acts) front back := by
  induction acts using List.reverseRecOn with
  | nil => exact ⟨[], [], rfl, by simp, by simp, rfl, rfl⟩
  | append_singleton acts a ih =>
      have hbefore : acts <+: acts ++ [a] := List.prefix_append ..
      obtain ⟨front, back, t⟩ := ih (hacts.of_prefix hbefore)
      rw [after_concat, history_concat]
      exact t.touch (hacts acts hbefore) (act_touches q _ a)

def goneIds (q : String) (h : List Entry) : List String :=
  h.flatMap (fun e => (e.handed q).map Prod.fst)

theorem goneIds_concat (q : String) (h : List Entry) (e : Entry) :
    goneIds q (h ++ [e]) = goneIds q h ++ (e.handed q).map Prod.fst := by
  rw [goneIds, List.flatMap_append, List.flatMap_singleton, goneIds]

structure Numbered (q : String) (s : Store) : Prop where
  below : ∀ n ∈ (s.queue q).map Message.number, n < s.next
  rising : ((s.queue q).map Message.number).Pairwise (· < ·)

theorem Numbered.touch {q : String} {s s' : Store} {e : Entry} (n : Numbered q s)
    (he : Touches q s s' e) : Numbered q s' := by
  cases he with
  | quiet hq hn =>
      refine ⟨?_, ?_⟩
      · intro k hk
        exact Nat.lt_of_lt_of_le (n.below k (hq ▸ hk)) hn
      · rw [hq]
        exact n.rising
  | sent _ _ hq hn =>
      refine ⟨?_, ?_⟩
      · intro k hk
        rw [hq, List.map_append, List.mem_append] at hk
        rcases hk with hk | hk
        · have := n.below k hk
          omega
        · obtain rfl : k = s.next := by simpa using hk
          omega
      · rw [hq, List.map_append, List.pairwise_append]
        refine ⟨n.rising, by simp, ?_⟩
        intro a ha b hb
        obtain rfl : b = s.next := by simpa using hb
        exact n.below a ha
  | received _ hq hn =>
      have hnumbers : (s'.queue q).map Message.number = (s.queue q).map Message.number := by
        rw [hq, Queue.map_receive (fun _ => rfl)]
      refine ⟨?_, ?_⟩
      · rw [hnumbers, hn]
        exact n.below
      · rw [hnumbers]
        exact n.rising
  | purged _ hq => exact ⟨by simp [hq], by simp [hq]⟩

theorem numbered (acts : List Act) (q : String) : Numbered q (after {} acts) := by
  induction acts using List.reverseRecOn with
  | nil =>
      have hempty : (after {} []).queue q = [] := rfl
      constructor <;> simp [hempty]
  | append_singleton acts a ih =>
      rw [after_concat]
      exact ih.touch (act_touches q _ a)

structure Gone (q : String) (s : Store) (h : List Entry) : Prop where
  past : ∀ id ∈ goneIds q h, ∃ m : Message, m.id = id ∧ m.number < s.next
  fresh : ∀ m ∈ s.queue q, m.hiddenUntil = none → m.id ∉ goneIds q h

namespace Gone

variable {q : String} {s s' : Store} {h : List Entry} {front back : Queue}

theorem touch_sent {c : Command} {id body : String} (g : Gone q s h)
    (hq : s'.queue q = s.queue q ++ [⟨s.next, body, 0, none⟩]) (hn : s'.next = s.next + 1) :
    Gone q s' (h ++ [.executed c (.ok (.sent id))]) := by
  have hgone : goneIds q (h ++ [.executed c (.ok (.sent id))]) = goneIds q h := by
    rw [goneIds_concat]
    exact List.append_nil _
  constructor
  · intro k hk
    obtain ⟨m, hm, hlt⟩ := g.past k (hgone ▸ hk)
    exact ⟨m, hm, by omega⟩
  · intro m hm hv
    rw [hgone]
    rw [hq, List.mem_append] at hm
    rcases hm with hm | hm
    · exact g.fresh m hm hv
    · intro hid
      obtain ⟨x, hx, hlt⟩ := g.past _ hid
      rw [Message.id_inj, List.mem_singleton.mp hm] at hx
      exact absurd hlt (by simp [hx])

theorem touch_received {c : Command} (g : Gone q s h) (n : Numbered q s)
    (t : Tracks q s h front back) (hs : Hiding q s)
    (hq : s'.queue q = ((s.queue q).receive s.now c.timeout c.limit).1) (hn : s'.next = s.next) :
    Gone q s'
      (h ++ [.executed c (.ok (.received ((s.queue q).receive s.now c.timeout c.limit).2))]) := by
  rw [t.receive hs] at hq ⊢
  have hids : ∀ id ∈ ((Entry.executed c (.ok (.received ((back.take c.limit).map
      (fun m => (m.delivered s.now c.timeout).delivery))))).handed q).map Prod.fst,
      c.hides = true ∧ ∃ x ∈ back.take c.limit, x.id = id := by
    intro id hid
    rw [Entry.handed] at hid
    split at hid
    · rename_i hc
      simp only [List.map_map, List.mem_map] at hid
      obtain ⟨x, hx, rfl⟩ := hid
      exact ⟨hc.2, x, hx, rfl⟩
    · simp at hid
  refine ⟨?_, ?_⟩
  · intro id hid
    rw [goneIds_concat, List.mem_append] at hid
    rw [hn]
    rcases hid with hid | hid
    · exact g.past id hid
    · obtain ⟨_, x, hx, rfl⟩ := hids id hid
      have hmem := t.mem_queue (List.mem_of_mem_take hx)
      exact ⟨x, rfl, n.below _ (List.mem_map_of_mem hmem)⟩
  · intro m hm hv
    rw [goneIds_concat, List.mem_append]
    rw [hq, List.mem_append, List.mem_append] at hm
    rcases hm with hm | hm | hm
    · obtain ⟨u, hu⟩ := t.hidden m hm
      rw [hu] at hv
      cases hv
    · obtain ⟨x, hx, rfl⟩ := List.mem_map.mp hm
      have hx' := List.mem_of_mem_take hx
      rintro (hid | hid)
      · exact g.fresh x (t.mem_queue hx') (t.visible x hx') hid
      · have hlong := c.hides_iff.mp (hids _ hid).1
        simp [Message.delivered, hlong] at hv
    · have hm' := List.mem_of_mem_drop hm
      rintro (hid | hid)
      · exact g.fresh m (t.mem_queue hm') (t.visible m hm') hid
      · -- a message behind those that were received has a greater number
        obtain ⟨_, x, hx, hid⟩ := hids _ hid
        have hrising := n.rising
        rw [t.queue, List.map_append, List.pairwise_append] at hrising
        have hback := hrising.2.1
        rw [← List.take_append_drop c.limit back, List.map_append, List.pairwise_append] at hback
        have hlt := hback.2.2 _ (List.mem_map_of_mem hx) _ (List.mem_map_of_mem hm)
        rw [Message.id_inj.mp hid] at hlt
        exact Nat.lt_irrefl _ hlt

theorem touch {e : Entry} (g : Gone q s h) (n : Numbered q s) (t : Tracks q s h front back)
    (hs : Hiding q s) (he : Touches q s s' e) : Gone q s' (h ++ [e]) := by
  cases he with
  | quiet hq hn _ _ hr =>
      have hgone : goneIds q (h ++ [e]) = goneIds q h := by
        rw [goneIds_concat, Entry.handed_of_not_received hr]
        exact List.append_nil _
      refine ⟨?_, ?_⟩
      · intro k hk
        obtain ⟨m, hm, hlt⟩ := g.past k (hgone ▸ hk)
        exact ⟨m, hm, Nat.lt_of_lt_of_le hlt hn⟩
      · rw [hq, hgone]
        exact g.fresh
  | sent _ _ hq hn => exact g.touch_sent hq hn
  | received _ hq hn => exact g.touch_received n t hs hq hn
  | purged _ hq hn =>
      refine ⟨?_, by simp [hq]⟩
      intro k hk
      rw [goneIds_concat] at hk
      rw [hn]
      exact g.past k (by simpa [Entry.handed] using hk)

end Gone

theorem gone {acts : List Act} {q : String} (hacts : Lasting q acts) :
    Gone q (after {} acts) (history {} acts) := by
  induction acts using List.reverseRecOn with
  | nil =>
      have hempty : (after {} []).queue q = [] := rfl
      constructor <;> simp [hempty, history, goneIds]
  | append_singleton acts a ih =>
      have hbefore : acts <+: acts ++ [a] := List.prefix_append ..
      obtain ⟨front, back, t⟩ := exists_tracks (hacts.of_prefix hbefore)
      rw [after_concat, history_concat]
      exact (ih (hacts.of_prefix hbefore)).touch (numbered acts q) t (hacts acts hbefore)
        (act_touches q _ a)

theorem exists_acts_of_history {s : Store} {acts : List Act} {before later : List Entry}
    {e : Entry} (h : history s acts = before ++ e :: later) :
    ∃ acts' a, acts' <+: acts ∧ before = history s acts' ∧ (act (after s acts') a).2 = e := by
  induction before generalizing s acts with
  | nil =>
      cases acts with
      | nil => cases h
      | cons a acts =>
          obtain ⟨rfl, _⟩ := List.cons.inj h
          exact ⟨[], a, List.nil_prefix, rfl, rfl⟩
  | cons x before ih =>
      cases acts with
      | nil => cases h
      | cons a acts =>
          obtain ⟨rfl, htail⟩ := List.cons.inj h
          obtain ⟨acts', a', hacts, rfl, he⟩ := ih htail
          exact ⟨a :: acts', a', List.cons_prefix_cons.mpr ⟨rfl, hacts⟩, rfl, he⟩

theorem exists_received {acts : List Act} {before later : List Entry} {c : Command}
    {ds : List Delivery} (hacts : Lasting c.target acts)
    (h : history {} acts = before ++ .executed c (.ok (.received ds)) :: later) :
    ∃ s front back, Tracks c.target s before front back ∧ Gone c.target s before ∧
      ds = (back.take c.limit).map (fun m => (m.delivered s.now c.timeout).delivery) := by
  obtain ⟨acts', a, hbefore, rfl, he⟩ := exists_acts_of_history h
  have hacts' := hacts.of_prefix hbefore
  obtain ⟨front, back, t⟩ := exists_tracks hacts'
  refine ⟨_, front, back, t, gone hacts', ?_⟩
  have htouch := act_touches c.target (after {} acts') a
  rw [he] at htouch
  have hreceive := t.receive (hacts acts' hbefore) c.timeout c.limit
  cases htouch with
  | quiet _ _ _ _ hr => exact absurd rfl (hr c ds rfl)
  | received => rw [hreceive]

theorem delivers_in_order {acts : List Act} {q : String} (hacts : Lasting q acts) :
    handed q (history {} acts) <+: sent q (history {} acts) ∧
      ∀ before c ds later,
        history {} acts = before ++ .executed c (.ok (.received ds)) :: later → c.target = q →
          ds.map Delivery.item = ((sent q before).drop (handed q before).length).take c.limit ∧
            ds.length = min c.limit ((sent q before).length - (handed q before).length) ∧
            handed q (before ++ [.executed c (.ok (.received ds))]) =
              handed q before ++ (if c.hides then ds.map Delivery.item else []) ∧
            (c.hides = true → ∀ c' ds', .executed c' (.ok (.received ds')) ∈ later →
              c'.target = q → ∀ d ∈ ds, ∀ d' ∈ ds', d.messageId ≠ d'.messageId) := by
  constructor
  · obtain ⟨front, back, t⟩ := exists_tracks hacts
    rw [← t.gone, ← t.all, List.map_append]
    exact List.prefix_append _ _
  · rintro before c ds later h rfl
    obtain ⟨s, front, back, t, _, hds⟩ := exists_received hacts h
    have hitems : ds.map Delivery.item =
        ((sent c.target before).drop (handed c.target before).length).take c.limit := by
      rw [t.drop_sent, hds, List.map_map, ← List.map_take]
      rfl
    refine ⟨hitems, ?_, ?_, ?_⟩
    · rw [← List.length_drop, ← List.length_take, ← hitems, List.length_map]
    · rw [handed_concat before rfl]
      simp [Entry.handed]
    · intro hc c' ds' hmem ht d hd d' hd' heq
      obtain ⟨middle, later', rfl⟩ := List.append_of_mem hmem
      rw [← List.cons_append, ← List.append_assoc] at h
      obtain ⟨s', front', back', t', g', rfl⟩ := exists_received (ht ▸ hacts) h
      obtain ⟨x, hx, rfl⟩ := List.mem_map.mp hd'
      have hx' := List.mem_of_mem_take hx
      refine g'.fresh x (t'.mem_queue hx') (t'.visible x hx') ?_
      have hgone : d.messageId ∈ goneIds c'.target
          (before ++ .executed c (.ok (.received ds)) :: middle) := by
        simp only [goneIds, List.flatMap_append, List.flatMap_cons, List.mem_append]
        refine .inr (.inl ?_)
        rw [Entry.handed, if_pos ⟨ht.symm, hc⟩, List.map_map]
        exact List.mem_map_of_mem hd
      rwa [heq] at hgone

theorem delivers_in_order_behind_hidden :
    let first : Command := { Command.bare .receive "q" with maxMessages := some 1 }
    let second : Command := { Command.bare .receive "q" with visibilityTimeout := some 0 }
    let sends : List Act := [.create "q",
      .execute { Command.bare .send "q" with body := some (.ofNat 7) },
      .execute { Command.bare .send "q" with body := some (.ofNat 8) }]
    let one : Entry := .executed first (.ok (.received [⟨"msg-1", "msg-1-r1", "7"⟩]))
    let two : Entry := .executed second (.ok (.received [⟨"msg-2", "msg-2-r1", "8"⟩]))
    history {} (sends ++ [.execute first, .execute second]) = history {} sends ++ one :: [two] ∧
      first.hides = true ∧
      [("msg-1", "7")] = ((sent "q" (history {} sends)).drop 0).take 1 ∧
      [("msg-2", "8")] = ((sent "q" (history {} sends ++ [one])).drop 1).take 10 ∧
      "msg-1" ≠ "msg-2" := by
  intro first second sends one two
  have hfirst : ((after {} sends).execute first).2 =
      .ok (.received [⟨"msg-1", "msg-1-r1", "7"⟩]) := by decide
  have hsecond : (((after {} sends).execute first).1.execute second).2 =
      .ok (.received [⟨"msg-2", "msg-2-r1", "8"⟩]) := by decide
  have h : history {} (sends ++ [.execute first, .execute second]) =
      history {} sends ++ one :: [two] := by
    rw [history_append]
    simp only [history, act, hfirst, hsecond, one, two]
  have h' : history {} (sends ++ [.execute first, .execute second]) =
      (history {} sends ++ [one]) ++ two :: [] := by rw [h, List.append_assoc]; rfl
  have hlasting : Lasting "q" (sends ++ [.execute first, .execute second]) :=
    lasting_of_still "q" (by simp [sends, Act.time])
  obtain ⟨hone, _, _, hapart⟩ := (delivers_in_order hlasting).2 _ first _ _ h rfl
  obtain ⟨htwo, _⟩ := (delivers_in_order hlasting).2 _ second _ _ h' rfl
  refine ⟨h, rfl, ?_, ?_, ?_⟩
  · exact hone
  · exact htwo
  · exact hapart rfl second _ (List.mem_singleton_self _) rfl _ (List.mem_singleton_self _) _
      (List.mem_singleton_self _)

end Session

end QueueScript
