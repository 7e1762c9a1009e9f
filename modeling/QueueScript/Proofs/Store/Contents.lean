import QueueScript.Proofs.Store.Delivery

namespace QueueScript.Session

namespace Entry

def succeeds (kind : Kind) (q : String) : Entry → Bool
  | .executed c (.ok _) => c.kind == kind && c.target == q
  | _ => false

def bodyText? : Entry → Option String
  | .executed c _ => c.body.map Json.compact
  | _ => none

end Entry

def sentBodies (q : String) (h : List Entry) : List String :=
  ((h.rtakeWhile (fun e => !e.succeeds .purge q)).filter (Entry.succeeds .send q)).filterMap
    Entry.bodyText?

theorem sentBodies_concat {q : String} {e : Entry} (h : List Entry)
    (he : e.succeeds .purge q = false) :
    sentBodies q (h ++ [e]) =
      sentBodies q h ++ if e.succeeds .send q then e.bodyText?.toList else [] := by
  rw [sentBodies, List.rtakeWhile_concat_pos _ _ _ (by simp [he]), List.filter_append,
    List.filterMap_append, sentBodies]
  congr 1
  cases hs : e.succeeds .send q with
  | false => simp [hs]
  | true => cases hb : e.bodyText? <;> simp [hs, hb]

theorem sentBodies_concat_of_purge {q : String} {e : Entry} (h : List Entry)
    (he : e.succeeds .purge q = true) : sentBodies q (h ++ [e]) = [] := by
  rw [sentBodies, List.rtakeWhile_concat_neg _ _ _ (by simp [he])]
  rfl

theorem succeeds_ne {k k' : Kind} {q : String} {e : Entry} (h : e.succeeds k q = true)
    (hne : k' ≠ k) : e.succeeds k' q = false := by
  match e, h with
  | .executed c (.ok r), h =>
      obtain ⟨rfl, rfl⟩ : c.kind = k ∧ c.target = q := by simpa [Entry.succeeds] using h
      simpa [Entry.succeeds] using hne.symm

inductive Changes (q : String) (s s' : Store) (e : Entry) : Prop where
  | sent (body : String) (succeeds : e.succeeds .send q = true) (text : e.bodyText? = some body)
      (queue : s'.queue q = s.queue q ++ [⟨s.next, body, 0, none⟩])
  | received (now timeout n : Nat) (succeeds : e.succeeds .receive q = true)
      (queue : s'.queue q = ((s.queue q).receive now timeout n).1)
  | purged (succeeds : e.succeeds .purge q = true) (queue : s'.queue q = [])
  | nothing (fails : ∀ kind, e.succeeds kind q = false) (queue : s'.queue q = s.queue q)

theorem changes_of_executes {s s' : Store} {c : Command} {r : Except ExecuteError Response}
    (q : String) (h : s.Executes c s' r) : Changes q s s' (.executed c r) := by
  by_cases ht : c.target = q
  · subst ht
    cases h with
    | missing | unknown | rejected => exact .nothing (fun _ => rfl) rfl
    | sent hk hb hq =>
        refine .sent _ (by simp [Entry.succeeds, hk]) (by rw [Entry.bodyText?, hb]; rfl) ?_
        rw [Store.queue_of_lookup hq]
        exact Store.queue_setQueue_self s _ _
    | received hk hq =>
        refine .received s.now c.timeout c.limit (by simp [Entry.succeeds, hk]) ?_
        rw [Store.queue_of_lookup hq]
        exact Store.queue_setQueue_self s _ _
    | purged hk => exact .purged (by simp [Entry.succeeds, hk]) (Store.queue_setQueue_self s _ _)
  · have helsewhere : ∀ kind, (Entry.executed c r).succeeds kind q = false := by
      intro kind
      cases r <;> simp [Entry.succeeds, ht]
    cases h with
    | missing | unknown | rejected => exact .nothing helsewhere rfl
    | sent | received | purged =>
        exact .nothing helsewhere (Store.queue_setQueue_of_ne (Ne.symm ht) s _)

theorem act_changes (q : String) (s : Store) (a : Act) : Changes q s (act s a).1 (act s a).2 := by
  cases a with
  | create t => exact .nothing (fun _ => rfl) (s.queue_create q t)
  | execute c => exact changes_of_executes q (s.executes c)
  | wait time => exact .nothing (fun _ => rfl) rfl

theorem Changes.bodies {q : String} {s s' : Store} {e : Entry} {h : List Entry}
    (hc : Changes q s s' e) (hs : s.bodies q = sentBodies q h) :
    s'.bodies q = sentBodies q (h ++ [e]) := by
  have hbodies (t : Store) : t.bodies q = (t.queue q).map Message.body := rfl
  rw [hbodies] at hs ⊢
  cases hc with
  | sent body he hb hq =>
      rw [sentBodies_concat h (succeeds_ne he (by decide)), hq, he, hb, List.map_append, hs]
      rfl
  | received now timeout n he hq =>
      have hsend := succeeds_ne he (show Kind.send ≠ .receive by decide)
      rw [sentBodies_concat h (succeeds_ne he (by decide)), hq, hsend,
        Queue.map_receive (fun _ => rfl), hs]
      exact (List.append_nil _).symm
  | purged he hq =>
      rw [sentBodies_concat_of_purge h he, hq]
      rfl
  | nothing he hq =>
      rw [sentBodies_concat h (he .purge), hq, he .send, hs]
      exact (List.append_nil _).symm

theorem Changes.items {q : String} {s s' : Store} {e : Entry} (hc : Changes q s s' e)
    (hsend : e.succeeds .send q = false) (hpurge : e.succeeds .purge q = false) :
    (s'.queue q).map Message.item = (s.queue q).map Message.item ∧
      (e.succeeds .receive q = false → s'.queue q = s.queue q) := by
  cases hc with
  | sent _ he => simp [he] at hsend
  | received now timeout n he hq =>
      rw [hq]
      exact ⟨Queue.map_receive (fun _ => rfl) n _, by simp [he]⟩
  | purged he => simp [he] at hpurge
  | nothing _ hq => exact ⟨by rw [hq], fun _ => hq⟩

theorem holds_sent_since_purge (acts : List Act) (q : String) :
    (after {} acts).bodies q = sentBodies q (history {} acts) ∧
      ∀ a, (act (after {} acts) a).2.succeeds .send q = false →
        (act (after {} acts) a).2.succeeds .purge q = false →
          ((after {} (acts ++ [a])).queue q).map Message.item =
              ((after {} acts).queue q).map Message.item ∧
            ((act (after {} acts) a).2.succeeds .receive q = false →
              (after {} (acts ++ [a])).queue q = (after {} acts).queue q) := by
  constructor
  · induction acts using List.reverseRecOn with
    | nil => rfl
    | append_singleton acts a ih =>
        rw [after_concat, history_concat]
        exact (act_changes q _ a).bodies ih
  · intro a hsend hpurge
    rw [after_concat]
    exact (act_changes q _ a).items hsend hpurge

theorem holds_sent_since_purge_received :
    let send (q : String) (n : Nat) : Act :=
      .execute { Command.bare .send q with body := some (.ofNat n) }
    let acts : List Act := [.create "q", .create "r", send "q" 1, .execute (Command.bare .purge "q"),
      send "q" 2, send "r" 3, send "lost" 4, .create "q", send "q" 5]
    let receive : Act := .execute (Command.bare .receive "q")
    (after {} acts).bodies "q" = ["2", "5"] ∧
      (act (after {} acts) receive).2.succeeds .receive "q" = true ∧
      ((after {} (acts ++ [receive])).queue "q").map Message.item =
        [("msg-2", "2"), ("msg-4", "5")] := by
  intro send acts receive
  obtain ⟨hbodies, hkept⟩ := holds_sent_since_purge acts "q"
  refine ⟨?_, by decide, ?_⟩
  · rw [hbodies]
    decide
  · rw [(hkept receive (by decide) (by decide)).1]
    decide

end QueueScript.Session
