namespace QueueScript

abbrev Table (κ α : Type) := List (κ × α)

namespace Table

variable {κ α : Type}

def keys (t : Table κ α) : List κ := t.map Prod.fst

def Sorted [LT κ] (t : Table κ α) : Prop := (keys t).Pairwise (· < ·)

def lookup [DecidableEq κ] (k : κ) : Table κ α → Option α
  | [] => none
  | (k', a) :: t => if k = k' then some a else lookup k t

def insert [LT κ] [DecidableLT κ] [DecidableEq κ] (k : κ) (a : α) : Table κ α → Table κ α
  | [] => [(k, a)]
  | (k', a') :: t =>
      if k < k' then (k, a) :: (k', a') :: t
      else if k = k' then (k, a) :: t
      else (k', a') :: insert k a t

def erase [DecidableEq κ] (k : κ) (t : Table κ α) : Table κ α :=
  t.filter (fun e => decide (e.1 ≠ k))

theorem lookup_insert_self [LT κ] [DecidableLT κ] [DecidableEq κ] (k : κ) (a : α)
    (t : Table κ α) : lookup k (insert k a t) = some a := by
  induction t with
  | nil => simp [insert, lookup]
  | cons e t ih =>
      simp only [insert]
      split
      · simp [lookup]
      · split
        · simp [lookup]
        · rename_i h; simp [lookup, h, ih]

theorem lookup_insert_of_ne [LT κ] [DecidableLT κ] [DecidableEq κ] {j k : κ} (h : j ≠ k) (a : α)
    (t : Table κ α) : lookup j (insert k a t) = lookup j t := by
  induction t with
  | nil => simp [insert, lookup, h]
  | cons e t ih =>
      simp only [insert]
      split
      · simp [lookup, h]
      · split
        · rename_i hk; simp [lookup, ← hk, h]
        · simp [lookup, ih]

theorem lookup_erase_self [DecidableEq κ] (k : κ) (t : Table κ α) :
    lookup k (erase k t) = none := by
  induction t with
  | nil => rfl
  | cons e t ih =>
      by_cases h : e.1 = k
      · simpa [erase, h] using ih
      · simp only [erase, ne_eq, h, not_false_eq_true, decide_true, List.filter_cons_of_pos, lookup,
          Ne.symm h, if_false]
        exact ih

theorem lookup_erase_of_ne [DecidableEq κ] {j k : κ} (h : j ≠ k) (t : Table κ α) :
    lookup j (erase k t) = lookup j t := by
  induction t with
  | nil => rfl
  | cons e t ih =>
      by_cases he : e.1 = k
      · have hj : j ≠ e.1 := fun hj => h (hj.trans he)
        simpa [erase, he, lookup, h] using ih
      · simp only [erase, ne_eq, he, not_false_eq_true, decide_true, List.filter_cons_of_pos, lookup]
        split
        · rfl
        · exact ih

theorem mem_keys_iff [DecidableEq κ] {k : κ} {t : Table κ α} :
    k ∈ keys t ↔ (lookup k t).isSome = true := by
  induction t with
  | nil => simp [keys, lookup]
  | cons e t ih =>
      simp only [keys] at ih
      by_cases h : k = e.1
      · simp [keys, lookup, h]
      · simp only [keys, List.map_cons, List.mem_cons, h, false_or, ih, lookup, if_false]

theorem mem_keys_insert [LT κ] [DecidableLT κ] [DecidableEq κ] {j k : κ} (a : α)
    (t : Table κ α) : j ∈ keys (insert k a t) ↔ j = k ∨ j ∈ keys t := by
  induction t with
  | nil => simp [insert, keys]
  | cons e t ih =>
      simp only [keys] at ih
      simp only [insert]
      split
      · simp [keys]
      · split
        · rename_i h
          simp [keys, h]
        · simp [keys, ih, or_left_comm]

theorem sorted_insert [LT κ] [DecidableLT κ] [DecidableEq κ]
    [Std.Trichotomous (fun a b : κ => a < b)]
    [Trans (fun a b : κ => a < b) (fun a b : κ => a < b) (fun a b : κ => a < b)] (k : κ) (a : α)
    {t : Table κ α} (h : Sorted t) : Sorted (insert k a t) := by
  induction t with
  | nil => exact List.pairwise_singleton _ _
  | cons e t ih =>
      obtain ⟨hlt, htail⟩ := List.pairwise_cons.mp h
      simp only [insert]
      split
      · rename_i hk
        refine List.pairwise_cons.mpr ⟨?_, h⟩
        intro j hj
        rcases List.mem_cons.mp hj with rfl | hj
        · exact hk
        · exact Trans.trans hk (hlt j hj)
      · rename_i hnlt
        split
        · rename_i hk
          exact List.pairwise_cons.mpr ⟨hk ▸ hlt, htail⟩
        · rename_i hk
          refine List.pairwise_cons.mpr ⟨?_, ih htail⟩
          intro j hj
          rcases (mem_keys_insert a t).mp hj with rfl | hj
          · exact Decidable.byContradiction
              (fun hgt => hk (Std.Trichotomous.trichotomous _ _ hnlt hgt))
          · exact hlt j hj

theorem sorted_erase [LT κ] [DecidableEq κ] (k : κ) {t : Table κ α} (h : Sorted t) :
    Sorted (erase k t) :=
  List.Pairwise.sublist (List.Sublist.map Prod.fst List.filter_sublist) h

end Table

end QueueScript
