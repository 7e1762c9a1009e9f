import Mathlib.Data.List.Basic
import Mathlib.Data.List.TakeWhile
import QueueScript.Text.Blank

namespace QueueScript.Text

theorem trimStart_eq_nil_iff {s : List Char} : trimStart s = [] ↔ ∀ c ∈ s, isBlank c = true := by
  simp [trimStart, List.dropWhile_eq_nil_iff]

theorem isBlank_of_head?_trimStart {s : List Char} {c : Char} (h : (trimStart s).head? = some c) :
    isBlank c = false := by
  have hc := List.head?_dropWhile_not isBlank s
  rw [← trimStart, h] at hc
  simpa using hc

theorem trimStart_append {s : List Char} (h : trimStart s ≠ []) (t : List Char) :
    trimStart (s ++ t) = trimStart s ++ t := by
  rw [trimStart, List.dropWhile_append, if_neg (by simpa [trimStart] using h), trimStart]

theorem head?_trimStart_append {s : List Char} (h : trimStart s ≠ []) (t : List Char) :
    (trimStart (s ++ t)).head? = (trimStart s).head? := by
  rw [trimStart_append h, List.head?_append_of_ne_nil _ h]

theorem trimEnd_append_singleton {s : List Char} {c : Char} (h : isBlank c = false) :
    trimEnd (s ++ [c]) = s ++ [c] := by
  simp [trimEnd, h]

theorem trimEnd_eq_nil_iff {s : List Char} : trimEnd s = [] ↔ ∀ c ∈ s, isBlank c = true := by
  simp [trimEnd, List.dropWhile_eq_nil_iff]

theorem trimEnd_prefix (s : List Char) : ∃ w, s = trimEnd s ++ w ∧ ∀ c ∈ w, isBlank c = true := by
  refine ⟨(s.reverse.takeWhile isBlank).reverse, ?_, ?_⟩
  · rw [trimEnd, ← List.reverse_append, List.takeWhile_append_dropWhile, List.reverse_reverse]
  · intro c hc
    exact List.mem_takeWhile_imp (List.mem_reverse.mp hc)

theorem trim_eq_nil_iff {s : List Char} : trim s = [] ↔ ∀ c ∈ s, isBlank c = true := by
  constructor
  · intro h
    have ht : ∀ c ∈ trimStart s, isBlank c = true := trimEnd_eq_nil_iff.mp h
    cases hs : trimStart s with
    | nil => exact trimStart_eq_nil_iff.mp hs
    | cons c r =>
        have hc : isBlank c = false := isBlank_of_head?_trimStart (by rw [hs]; rfl)
        simp [ht c (by simp [hs])] at hc
  · intro h
    rw [trim, trimStart_eq_nil_iff.mpr h]
    rfl

theorem head?_trim (s : List Char) : (trim s).head? = (trimStart s).head? := by
  obtain ⟨w, hw, hb⟩ := trimEnd_prefix (trimStart s)
  cases hs : trimStart s with
  | nil => simp [trim, hs, trimEnd]
  | cons c r =>
      have hc : isBlank c = false := isBlank_of_head?_trimStart (by rw [hs]; rfl)
      cases ht : trim s with
      | nil =>
          have : isBlank c = true := trimEnd_eq_nil_iff.mp ht c (by simp [hs])
          simp [this] at hc
      | cons x xs =>
          rw [← trim, ht, hs] at hw
          simpa using (List.cons.inj hw).1.symm

def Blank (s : String) : Prop := ∀ c ∈ s.toList, isBlank c = true

instance (s : String) : Decidable (Blank s) := List.decidableBAll _ s.toList

theorem not_blank_trim {s : List Char} (h : trim s ≠ []) : ¬Blank (String.ofList (trim s)) := by
  intro hblank
  cases ht : trim s with
  | nil => exact h ht
  | cons c r =>
      have hhead : (trimStart s).head? = some c := by rw [← head?_trim, ht]; rfl
      have hc : isBlank c = true := hblank c (by simp [ht])
      simp [isBlank_of_head?_trimStart hhead] at hc

theorem isBlank_of_getLast?_trim {s : List Char} {c : Char} (h : (trim s).getLast? = some c) :
    isBlank c = false := by
  have hc := List.head?_dropWhile_not isBlank (trimStart s).reverse
  rw [trim, trimEnd, List.getLast?_reverse] at h
  rw [h] at hc
  simpa using hc

theorem trim_eq_self {s : List Char} (hhead : ∀ c, s.head? = some c → isBlank c = false)
    (hlast : ∀ c, s.getLast? = some c → isBlank c = false) : trim s = s := by
  have hstart : trimStart s = s := by
    cases s with
    | nil => rfl
    | cons c r => simp [trimStart, hhead c rfl]
  rw [trim, hstart]
  rcases List.eq_nil_or_concat s with rfl | ⟨r, c, rfl⟩
  · rfl
  · rw [List.concat_eq_append] at hlast ⊢
    exact trimEnd_append_singleton (hlast c (by simp))

theorem trim_append {s t : List Char} (hs : s ≠ []) (ht : t ≠ [])
    (hhead : ∀ c, s.head? = some c → isBlank c = false)
    (hlast : ∀ c, t.getLast? = some c → isBlank c = false) : trim (s ++ t) = s ++ t := by
  refine trim_eq_self ?_ ?_
  · rwa [List.head?_append_of_ne_nil s hs]
  · rwa [List.getLast?_append_of_ne_nil s ht]

theorem trimStart_cons_of_blank {s : List Char} {c : Char} (h : isBlank c = true) :
    trimStart (c :: s) = trimStart s := by
  simp [trimStart, h]

theorem trimStart_append_of_blank {w : List Char} (h : ∀ c ∈ w, isBlank c = true) (s : List Char) :
    trimStart (w ++ s) = trimStart s := List.dropWhile_append_of_pos h

theorem trimEnd_append_of_blank {w : List Char} (h : ∀ c ∈ w, isBlank c = true) (s : List Char) :
    trimEnd (s ++ w) = trimEnd s := by
  have hrev : ∀ c ∈ w.reverse, isBlank c = true := fun c hc => h c (List.mem_reverse.mp hc)
  rw [trimEnd, List.reverse_append, List.dropWhile_append_of_pos hrev, trimEnd]

theorem trim_append_of_blank {u w : List Char} (hu : ∀ c ∈ u, isBlank c = true)
    (hw : ∀ c ∈ w, isBlank c = true) (s : List Char) : trim (u ++ s ++ w) = trim s := by
  rw [trim, List.append_assoc, trimStart_append_of_blank hu]
  by_cases hs : trimStart s = []
  · have hall : ∀ c ∈ s ++ w, isBlank c = true :=
      List.forall_mem_append.mpr ⟨trimStart_eq_nil_iff.mp hs, hw⟩
    rw [trimStart_eq_nil_iff.mpr hall, trim, hs]
  · rw [trimStart_append hs, trimEnd_append_of_blank hw, trim]

theorem nextWord?_append {w s : List Char} (hne : w ≠ []) (hw : ∀ c ∈ w, isBlank c = false)
    (hs : ∀ c, s.head? = some c → isBlank c = true) : nextWord? (w ++ s) = some (w, s) := by
  cases w with
  | nil => exact absurd rfl hne
  | cons c r =>
      have hc : isBlank c = false := hw c (List.mem_cons_self ..)
      have hall : ∀ x ∈ c :: r, (!isBlank x) = true := fun x hx => by simp [hw x hx]
      have hstart : trimStart (c :: r ++ s) = c :: (r ++ s) := by simp [trimStart, hc]
      have hstop : s.takeWhile (fun c => !isBlank c) = [] ∧ s.dropWhile (fun c => !isBlank c) = s := by
        cases s with
        | nil => simp
        | cons x xs => simp [hs x rfl]
      have htake : (c :: r ++ s).takeWhile (fun c => !isBlank c) = c :: r := by
        rw [List.takeWhile_append_of_pos hall, hstop.1, List.append_nil]
      have hdrop : (c :: r ++ s).dropWhile (fun c => !isBlank c) = s := by
        rw [List.dropWhile_append_of_pos hall, hstop.2]
      rw [List.cons_append] at htake hdrop
      simp only [nextWord?, hstart, htake, hdrop]

theorem head?_of_nextWord? {s w r : List Char} (h : nextWord? s = some (w, r)) :
    w.head? = (trimStart s).head? := by
  cases hs : trimStart s with
  | nil => simp [nextWord?, hs] at h
  | cons c t =>
      have hc : isBlank c = false := isBlank_of_head?_trimStart (by rw [hs]; rfl)
      simp only [nextWord?, hs, Option.some.injEq, Prod.mk.injEq] at h
      simp [← h.1, hc]

theorem plain_of_nextWord? {s w r : List Char} (h : nextWord? s = some (w, r)) :
    w ≠ [] ∧ ∀ c ∈ w, isBlank c = false := by
  have hhead := head?_of_nextWord? h
  cases hs : trimStart s with
  | nil => simp [nextWord?, hs] at h
  | cons x t =>
      rw [hs] at hhead
      simp only [nextWord?, hs, Option.some.injEq, Prod.mk.injEq] at h
      constructor
      · rintro rfl
        cases hhead
      · intro c hc
        rw [← h.1] at hc
        simpa using List.mem_takeWhile_imp hc

end QueueScript.Text
