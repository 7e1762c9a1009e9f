import QueueScript.Text.Lines

namespace QueueScript.Text

theorem not_mem_of_mem_splitLines {s l : List Char} (h : l ∈ splitLines s) : '\n' ∉ l := by
  induction s generalizing l with
  | nil =>
      simp only [splitLines, List.mem_singleton] at h
      simp [h]
  | cons c s ih =>
      simp only [splitLines] at h
      split at h
      · rcases List.mem_cons.mp h with rfl | hl
        · simp
        · exact ih hl
      · rename_i hc
        cases hs : splitLines s with
        | nil => exact absurd hs (splitLines_ne_nil s)
        | cons m ms =>
            rw [hs] at h ih
            rcases List.mem_cons.mp h with rfl | hl
            · have hm : '\n' ∉ m := ih (List.mem_cons_self ..)
              simp [hm, Ne.symm hc]
            · exact ih (List.mem_cons_of_mem _ hl)

theorem splitLines_of_not_mem {s : List Char} (h : '\n' ∉ s) : splitLines s = [s] := by
  induction s with
  | nil => rfl
  | cons c s ih =>
      obtain ⟨hc, hs⟩ : '\n' ≠ c ∧ '\n' ∉ s := by simpa using h
      simp [splitLines, hc.symm, ih hs]

theorem splitLines_cons {c : Char} (hc : c ≠ '\n') (s : List Char) :
    ∃ l ls, splitLines s = l :: ls ∧ splitLines (c :: s) = (c :: l) :: ls := by
  cases hs : splitLines s with
  | nil => exact absurd hs (splitLines_ne_nil s)
  | cons l ls => exact ⟨l, ls, rfl, by simp [splitLines, hc, hs]⟩

theorem splitLines_append {s t l m : List Char} {ls ms : List (List Char)}
    (hs : splitLines s = ls ++ [l]) (ht : splitLines t = m :: ms) :
    splitLines (s ++ t) = ls ++ (l ++ m) :: ms := by
  induction s generalizing ls l with
  | nil =>
      obtain ⟨rfl, rfl⟩ : ls = [] ∧ l = [] := by
        cases ls with
        | nil => simpa [splitLines, eq_comm] using hs
        | cons x xs => simp [splitLines] at hs
      simpa using ht
  | cons c s ih =>
      simp only [splitLines, List.cons_append] at hs ⊢
      split at hs
      · rename_i hc
        cases ls with
        | nil => simp [splitLines_ne_nil] at hs
        | cons x xs =>
            obtain ⟨rfl, hx⟩ := List.cons.inj hs
            simp [hc, ih hx]
      · rename_i hc
        cases hcut : splitLines s with
        | nil => exact absurd hcut (splitLines_ne_nil s)
        | cons y ys =>
            rw [hcut] at hs
            cases ls with
            | nil =>
                obtain ⟨rfl, rfl⟩ : l = c :: y ∧ ys = [] := by
                  simpa [eq_comm, and_comm] using hs
                have hst : splitLines (s ++ t) = [] ++ (y ++ m) :: ms := ih (by simpa using hcut)
                simp [hc, hst]
            | cons x xs =>
                obtain ⟨rfl, rfl⟩ := List.cons.inj hs
                have hst : splitLines (s ++ t) = (y :: xs) ++ (l ++ m) :: ms :=
                  ih (by simpa using hcut)
                simp [hc, hst]

theorem splitLines_append_feed (s t : List Char) :
    splitLines (s ++ '\n' :: t) = splitLines s ++ splitLines t := by
  have hs := (List.dropLast_concat_getLast (splitLines_ne_nil s)).symm
  have ht : splitLines ('\n' :: t) = [] :: splitLines t := by simp [splitLines]
  rw [splitLines_append hs ht, List.append_nil, List.append_cons, ← hs]

theorem forall_splitLines_append {P : List Char → Prop} (happ : ∀ l m, P l → P m → P (l ++ m))
    {s t : List Char} (hs : ∀ l ∈ splitLines s, P l) (ht : ∀ l ∈ splitLines t, P l) :
    ∀ l ∈ splitLines (s ++ t), P l := by
  have hcut := (List.dropLast_concat_getLast (splitLines_ne_nil s)).symm
  cases hm : splitLines t with
  | nil => exact absurd hm (splitLines_ne_nil t)
  | cons m ms =>
      rw [hm] at ht
      rw [splitLines_append hcut hm]
      intro l hl
      rcases List.mem_append.mp hl with hl | hl
      · exact hs l ((List.dropLast_subset _) hl)
      · rcases List.mem_cons.mp hl with rfl | hl
        · exact happ _ _ (hs _ (List.getLast_mem _)) (ht m (List.mem_cons_self ..))
        · exact ht l (List.mem_cons_of_mem _ hl)

theorem joinLines_append {ls ms : List (List Char)} (hl : ls ≠ []) (hm : ms ≠ []) :
    joinLines (ls ++ ms) = joinLines ls ++ '\n' :: joinLines ms := by
  induction ls with
  | nil => exact absurd rfl hl
  | cons l ls ih =>
      cases ls with
      | nil =>
          cases ms with
          | nil => exact absurd rfl hm
          | cons m ms => simp [joinLines]
      | cons k ls => simpa [joinLines] using ih (by simp)

theorem exists_joinLines_append {ls : List (List Char)} (hl : ls ≠ []) (ms : List (List Char)) :
    ∃ v, joinLines (ls ++ ms) = joinLines ls ++ v := by
  by_cases hm : ms = []
  · exact ⟨[], by rw [hm, List.append_nil, List.append_nil]⟩
  · exact ⟨_, joinLines_append hl hm⟩

theorem splitLines_joinLines {ls : List (List Char)} (hne : ls ≠ []) (h : ∀ l ∈ ls, '\n' ∉ l) :
    splitLines (joinLines ls) = ls := by
  induction ls with
  | nil => exact absurd rfl hne
  | cons l ls ih =>
      have hl : splitLines l = [l] := splitLines_of_not_mem (h l (List.mem_cons_self ..))
      cases ls with
      | nil => simpa [joinLines] using hl
      | cons k ls =>
          have hk := ih (by simp) (fun x hx => h x (List.mem_cons_of_mem _ hx))
          simp only [joinLines]
          rw [splitLines_append_feed, hl, hk]
          rfl

theorem length_splitLines (s : List Char) : (splitLines s).length = s.count '\n' + 1 := by
  induction s with
  | nil => rfl
  | cons c s ih =>
      by_cases hc : c = '\n'
      · simp [splitLines, hc, ih]
      · simp only [splitLines, hc, if_false]
        cases hs : splitLines s with
        | nil => exact absurd hs (splitLines_ne_nil s)
        | cons l ls =>
            rw [hs] at ih
            simpa [hc] using ih

end QueueScript.Text
