import Mathlib.Data.List.Induction
import QueueScript.Proofs.Store.Execute

namespace QueueScript

namespace Store

variable {s : Store} {q t : String}

def queue (s : Store) (q : String) : Queue := (Table.lookup q s.queues).getD []

theorem queue_of_lookup {ms : Queue} (h : Table.lookup q s.queues = some ms) : s.queue q = ms := by
  rw [queue, h, Option.getD_some]

@[simp] theorem queue_setQueue_self (s : Store) (q : String) (ms : Queue) :
    (s.setQueue q ms).queue q = ms :=
  queue_of_lookup (Table.lookup_insert_self q ms s.queues)

theorem queue_setQueue_of_ne (h : q ≠ t) (s : Store) (ms : Queue) :
    (s.setQueue t ms).queue q = s.queue q := by
  rw [queue, setQueue, Table.lookup_insert_of_ne h, queue]

theorem queue_create (s : Store) (q t : String) : (s.create t).queue q = s.queue q := by
  rw [create]
  split
  · rfl
  · rename_i h
    by_cases hq : q = t
    · subst hq
      rw [queue_of_lookup (Table.lookup_insert_self q [] s.queues), queue, h, Option.getD_none]
    · exact queue_setQueue_of_ne hq s []

def Has (s : Store) (q : String) : Prop := (Table.lookup q s.queues).isSome = true

theorem has_of_lookup {ms : Queue} (h : Table.lookup q s.queues = some ms) : s.Has q := by
  rw [Has, h, Option.isSome_some]

theorem has_setQueue (ms : Queue) (ht : s.Has t) : (s.setQueue t ms).Has q ↔ s.Has q := by
  by_cases h : q = t
  · subst h
    simp only [Has, setQueue, Table.lookup_insert_self, Option.isSome_some, true_iff]
    exact ht
  · simp only [Has, setQueue, Table.lookup_insert_of_ne h]

theorem has_create (s : Store) (q t : String) : (s.create t).Has q ↔ s.Has q ∨ q = t := by
  rw [create]
  split
  · rename_i ms h
    exact ⟨Or.inl, fun hq => hq.elim id (fun hq => hq ▸ has_of_lookup h)⟩
  · rename_i h
    by_cases hq : q = t
    · subst hq
      simp [Has, Table.lookup_insert_self]
    · simp [Has, Table.lookup_insert_of_ne hq, hq]

theorem Executes.has {s' : Store} {c : Command} {r : Except ExecuteError Response}
    (h : Executes s c s' r) : s'.Has q ↔ s.Has q := by
  cases h with
  | missing | unknown | rejected => exact Iff.rfl
  | sent _ _ hq | received _ hq | purged _ hq => exact has_setQueue _ (has_of_lookup hq)

end Store

namespace Session

inductive Act where
  | create (queue : String)
  | execute (c : Command)
  | wait (time : Nat)

inductive Entry where
  | created (queue : String)
  | executed (c : Command) (result : Except ExecuteError Response)
  | waited (time : Nat)

-- Commands take no time: the clock reads what the waits before them add up to.
def act (s : Store) : Act → Store × Entry
  | .create q => (s.create q, .created q)
  | .execute c => ((s.execute c).1, .executed c (s.execute c).2)
  | .wait time => ({ s with now := s.now + time }, .waited time)

def after (s : Store) (acts : List Act) : Store := acts.foldl (fun s a => (act s a).1) s

def history (s : Store) : List Act → List Entry
  | [] => []
  | a :: acts => (act s a).2 :: history (act s a).1 acts

theorem after_concat (s : Store) (acts : List Act) (a : Act) :
    after s (acts ++ [a]) = (act (after s acts) a).1 := by
  simp only [after, List.foldl_append, List.foldl_cons, List.foldl_nil]

theorem history_append (s : Store) (acts more : List Act) :
    history s (acts ++ more) = history s acts ++ history (after s acts) more := by
  induction acts generalizing s with
  | nil => rfl
  | cons a acts ih => simp only [List.cons_append, history, after, List.foldl_cons, ih]

theorem history_concat (s : Store) (acts : List Act) (a : Act) :
    history s (acts ++ [a]) = history s acts ++ [(act (after s acts) a).2] :=
  history_append s acts [a]

theorem has_after (acts : List Act) (q : String) :
    (after {} acts).Has q ↔ Act.create q ∈ acts := by
  induction acts using List.reverseRecOn with
  | nil => simp [after, Store.Has, Table.lookup]
  | append_singleton acts a ih =>
      rw [after_concat]
      cases a with
      | create t => simp [act, Store.has_create, ih]
      | execute c => simp [act, ((after {} acts).executes c).has, ih]
      | wait time =>
          simp only [List.mem_append, List.mem_singleton, reduceCtorEq, or_false]
          exact ih

end Session

end QueueScript
