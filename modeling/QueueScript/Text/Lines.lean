namespace QueueScript.Text

def splitLines : List Char → List (List Char)
  | [] => [[]]
  | c :: s =>
      if c = '\n' then [] :: splitLines s
      else match splitLines s with
        | [] => [[c]]
        | l :: ls => (c :: l) :: ls

def joinLines : List (List Char) → List Char
  | [] => []
  | [l] => l
  | l :: ls => l ++ '\n' :: joinLines ls

theorem splitLines_ne_nil (s : List Char) : splitLines s ≠ [] := by
  cases s with
  | nil => simp [splitLines]
  | cons c s =>
      simp only [splitLines]
      split
      · simp
      · split <;> simp

theorem joinLines_splitLines (s : List Char) : joinLines (splitLines s) = s := by
  induction s with
  | nil => rfl
  | cons c s ih =>
      simp only [splitLines]
      split
      · rename_i h
        subst h
        cases hs : splitLines s with
        | nil => exact absurd hs (splitLines_ne_nil s)
        | cons l ls => simp [joinLines, ← hs, ih]
      · cases hs : splitLines s with
        | nil => exact absurd hs (splitLines_ne_nil s)
        | cons l ls =>
            rw [hs] at ih
            cases ls with
            | nil => simpa [joinLines] using ih
            | cons l' ls => simpa [joinLines] using ih

end QueueScript.Text
