import QueueScript.Proofs.Json.Braces
import QueueScript.Proofs.Json.Respaced

namespace QueueScript.Json

open Text (splitLines joinLines)

theorem count_joinLines {c : Char} (hc : c ≠ '\n') (ls : List (List Char)) :
    (joinLines ls).count c = ls.flatten.count c := by
  induction ls with
  | nil => rfl
  | cons l ls ih =>
      cases ls with
      | nil => simp [joinLines]
      | cons k ls => simpa [joinLines, hc.symm] using ih

theorem Spaces.count_eq_zero {w : List Char} (h : Spaces w) {c : Char} (hc : isSpace c = false) :
    w.count c = 0 := by
  rw [List.count_eq_zero]
  intro hm
  simp [h c hm] at hc

theorem Spaces.splitLines {w : List Char} (h : Spaces w) : ∀ l ∈ splitLines w, Spaces l := by
  induction w with
  | nil => simp [Text.splitLines, Spaces]
  | cons c w ih =>
      obtain ⟨hc, hw⟩ := List.forall_mem_cons.mp h
      refine Text.forall_splitLines_append (s := [c]) ?_ ?_ (ih hw)
      · intro l m hl hm
        exact List.forall_mem_append.mpr ⟨hl, hm⟩
      · intro l hl
        by_cases hf : c = '\n'
        · obtain rfl : l = [] := by simpa [Text.splitLines, hf] using hl
          simp [Spaces]
        · obtain rfl : l = [c] := by simpa [Text.splitLines, hf] using hl
          simpa [Spaces] using hc

theorem Nested.count_lt {w p u v : List Char} (hp : Nested p) (hf : BraceFree p) (hw : Spaces w)
    (h : w ++ '{' :: p = u ++ v) (hu : '{' ∈ u) : u.count '}' < u.count '{' := by
  have hwo : w.count '{' = 0 := hw.count_eq_zero rfl
  have hwc : w.count '}' = 0 := hw.count_eq_zero rfl
  rcases List.append_eq_append_iff.mp h with ⟨x, rfl, hx⟩ | ⟨x, rfl, _⟩
  · rcases List.cons_eq_append_iff.mp hx with ⟨rfl, _⟩ | ⟨y, rfl, hy⟩
    · rw [List.append_nil] at hu
      exact absurd hu (List.count_eq_zero.mp hwo)
    · have hle := (hp.count_braces hf).2 y v hy
      simp only [List.count_append, count_cons_open, hwo, hwc]
      omega
  · have hn : '{' ∉ u ++ x := List.count_eq_zero.mp hwo
    exact absurd (List.mem_append_left _ hu) hn

theorem count_flatten_of_spaces {ls : List (List Char)} (h : ∀ l ∈ ls, Spaces l) {c : Char}
    (hc : isSpace c = false) : ls.flatten.count c = 0 := by
  rw [List.count_eq_zero, List.mem_flatten]
  rintro ⟨l, hl, hm⟩
  simp [h l hl c hm] at hc

/-- The lines of an object, from the one with its opening brace to the one with its closing brace. -/
structure ObjectLines (text : List Char) (before : List (List Char)) (opening : List Char)
    (inner behind : List (List Char)) : Prop where
  split : splitLines text = before ++ opening :: inner ++ behind
  blank_before : ∀ l ∈ before, Spaces l
  blank_behind : ∀ l ∈ behind, Spaces l
  opens : (skipSpace opening).head? = some '{'
  closes : ∀ l, (opening :: inner).getLast? = some l → '}' ∈ l
  balance : ∀ ms ns, inner = ms ++ ns →
    ((opening :: ms).flatten.count '{' ≤ (opening :: ms).flatten.count '}' ↔ ns = [])

theorem count_objectLines {text opening : List Char} {before inner behind : List (List Char)}
    (hsplit : splitLines text = before ++ opening :: inner ++ behind)
    (hbefore : ∀ l ∈ before, Spaces l) (hbehind : ∀ l ∈ behind, Spaces l) {c : Char}
    (hc : isSpace c = false) : (opening :: inner).flatten.count c = text.count c := by
  have hfeed : c ≠ '\n' := by
    rintro rfl
    simp [isSpace] at hc
  rw [← Text.joinLines_splitLines text, count_joinLines hfeed, hsplit, List.flatten_append,
    List.flatten_append, List.count_append, List.count_append, count_flatten_of_spaces hbefore hc,
    count_flatten_of_spaces hbehind hc, Nat.zero_add, Nat.add_zero]

theorem count_object {w p r : List Char} (hw : Spaces w) (hr : Spaces r) (hp : Nested p)
    (hf : BraceFree p) :
    (w ++ ('{' :: p ++ '}' :: r)).count '}' = (w ++ ('{' :: p ++ '}' :: r)).count '{' := by
  have htotal := (hp.count_braces hf).1
  have hwo : w.count '{' = 0 := hw.count_eq_zero rfl
  have hwc : w.count '}' = 0 := hw.count_eq_zero rfl
  have hro : r.count '{' = 0 := hr.count_eq_zero rfl
  have hrc : r.count '}' = 0 := hr.count_eq_zero rfl
  simp [hwo, hwc, hro, hrc, htotal]

theorem count_lt_of_lines {w p x : List Char} {before ms ns : List (List Char)} (hw : Spaces w)
    (hp : Nested p) (hf : BraceFree p) (hsplit : splitLines (w ++ '{' :: p) = before ++ x :: ms ++ ns)
    (hx : '{' ∈ x) (hbefore : ∀ l ∈ before, Spaces l) :
    (x :: ms).flatten.count '}' < (x :: ms).flatten.count '{' := by
  have hcount {c : Char} (hc : isSpace c = false) (hfeed : c ≠ '\n') :
      (joinLines (before ++ x :: ms)).count c = (x :: ms).flatten.count c := by
    rw [count_joinLines hfeed, List.flatten_append, List.count_append,
      count_flatten_of_spaces hbefore hc, Nat.zero_add]
  obtain ⟨v, hv⟩ := Text.exists_joinLines_append (show before ++ x :: ms ≠ [] by simp) ns
  rw [← hsplit, Text.joinLines_splitLines] at hv
  have hmem : '{' ∈ joinLines (before ++ x :: ms) := by
    rw [← List.count_pos_iff, hcount rfl (by decide), List.count_pos_iff]
    simp [hx]
  have hlt := hp.count_lt hf hw hv hmem
  rwa [hcount rfl (by decide), hcount rfl (by decide)] at hlt

theorem exists_objectLines {w p r : List Char} (hw : Spaces w) (hr : Spaces r) (hp : Nested p)
    (hf : BraceFree p) :
    ∃ before opening inner behind,
      ObjectLines (w ++ ('{' :: p ++ '}' :: r)) before opening inner behind := by
  obtain ⟨before, z, hz⟩ : ∃ ls l, splitLines w = ls ++ [l] :=
    ⟨_, _, (List.dropLast_concat_getLast (Text.splitLines_ne_nil w)).symm⟩
  obtain ⟨y, ys, _, hy⟩ := Text.splitLines_cons (c := '{') (by decide) p
  obtain ⟨b, behind, hb, hclose⟩ := Text.splitLines_cons (c := '}') (by decide) r
  obtain ⟨os, o, ho⟩ : ∃ ls l, (z ++ '{' :: y) :: ys = ls ++ [l] :=
    ⟨_, _, (List.dropLast_concat_getLast (List.cons_ne_nil _ _)).symm⟩
  obtain ⟨opening, inner, hlines⟩ : ∃ l ls, os ++ [o ++ '}' :: b] = l :: ls :=
    List.exists_cons_of_ne_nil (by simp)
  have hzs : Spaces z := hw.splitLines z (by simp [hz])
  have hblank : ∀ l ∈ before, Spaces l := fun l hl => hw.splitLines l (by simp [hz, hl])
  have hbehind : ∀ l ∈ behind, Spaces l := fun l hl => hr.splitLines l (by simp [hb, hl])
  have hopen : splitLines (w ++ '{' :: p) = before ++ (os ++ [o]) := by
    rw [← ho]
    exact Text.splitLines_append hz hy
  have hsplit : splitLines (w ++ ('{' :: p ++ '}' :: r)) = before ++ opening :: inner ++ behind := by
    have hassoc : w ++ ('{' :: p ++ '}' :: r) = w ++ '{' :: p ++ '}' :: r := by simp
    rw [← List.append_assoc] at hopen
    rw [hassoc, Text.splitLines_append hopen hclose, ← hlines]
    simp
  -- The closing brace may stand on the line of the opening one.
  obtain ⟨u, hu⟩ : ∃ u, opening = z ++ '{' :: u := by
    cases os with
    | nil =>
        obtain ⟨rfl, _⟩ := List.cons.inj ho
        obtain ⟨rfl, _⟩ := List.cons.inj hlines
        exact ⟨y ++ '}' :: b, by simp⟩
    | cons x os =>
        obtain ⟨rfl, _⟩ := List.cons.inj ho
        obtain ⟨rfl, _⟩ := List.cons.inj hlines
        exact ⟨y, rfl⟩
  refine ⟨before, opening, inner, behind, hsplit, hblank, hbehind, ?_, ?_, ?_⟩
  · rw [hu, skipSpace_append hzs]
    rfl
  · intro l hl
    rw [← hlines, List.getLast?_concat] at hl
    rw [← Option.some.inj hl]
    simp
  · intro ms ns hms
    rcases List.eq_nil_or_concat ns with rfl | ⟨ns, n, rfl⟩
    · rw [List.append_nil] at hms
      subst hms
      rw [count_objectLines hsplit hblank hbehind rfl, count_objectLines hsplit hblank hbehind rfl,
        count_object hw hr hp hf]
      simp
    · -- The closing brace is behind these lines.
      rw [hms, List.concat_eq_append, ← List.append_assoc, ← List.cons_append] at hlines
      obtain ⟨rfl, _⟩ := List.append_inj' hlines rfl
      rw [List.cons_append, List.append_assoc, ← List.cons_append, ← List.append_assoc] at hopen
      have hlt := count_lt_of_lines hw hp hf hopen (by simp [hu]) hblank
      simp only [List.concat_eq_append, List.append_eq_nil_iff, List.cons_ne_self, and_false, iff_false,
        Nat.not_le]
      exact hlt

theorem Spaces.nested {w : List Char} (h : Spaces w) : Nested w := by
  have ht : Tokens w := fun c hc => isToken_of_isSpace (h c hc)
  exact ht.nested

theorem spaces_of_skipSpace {r : List Char} (h : skipSpace r = []) : Spaces r := by
  obtain ⟨w, hr, hw⟩ := skipSpace_split r
  rw [h, List.append_nil] at hr
  exact hr ▸ hw

theorem exists_objectLines_of_parse {text : List Char} {ms : List (String × Json)}
    (h : parse text = .ok (.object ms)) (hf : BraceFree text) :
    (∀ l ∈ splitLines text, StartsPlain l) ∧
      ∃ before opening inner behind, ObjectLines text before opening inner behind := by
  obtain ⟨r, hread, hskip⟩ := parse_eq_ok_iff.mp h
  obtain ⟨w, p, rfl, hw, hp⟩ := readValue_object hread
  have hr : Spaces r := spaces_of_skipSpace hskip
  have hnested : Nested (w ++ ('{' :: p ++ '}' :: r)) :=
    (Spaces.nested hw).append (.braces hp hr.nested)
  have hinner : BraceFree p := by
    have hquoted : quoted (w ++ ('{' :: p ++ '}' :: r)) = quoted w ++ (quoted p ++ quoted r) := by
      rw [(Spaces.nested hw).quoted_append, List.cons_append, quoted_cons (by decide),
        hp.quoted_append, quoted_cons (by decide)]
    rw [BraceFree, hquoted] at hf
    simp only [List.mem_append, not_or] at hf
    exact ⟨hf.1.2.1, hf.2.2.1⟩
  exact ⟨hnested.startsPlain, exists_objectLines hw hr hp hinner⟩

theorem Respaced.append {l s t : List Char} (hl : '\n' ∉ l) (h : Respaced s t) :
    Respaced (l ++ s) (l ++ t) := by
  induction l with
  | nil => exact h
  | cons c l ih =>
      obtain ⟨hc, hl⟩ : '\n' ≠ c ∧ '\n' ∉ l := by simpa using hl
      exact .char hc.symm (ih hl)

theorem Spaces.append {v w : List Char} (hv : Spaces v) (hw : Spaces w) : Spaces (v ++ w) :=
  List.forall_mem_append.mpr ⟨hv, hw⟩

theorem Spaces.feed {w : List Char} (h : Spaces w) : Spaces ('\n' :: w) :=
  List.forall_mem_cons.mpr ⟨rfl, h⟩

theorem Respaced.spaces {t : List Char} (h : Respaced [] t) : Spaces t := by
  cases h with
  | done hw => exact hw

theorem respaced_joinLines {keep : List Char → Bool} {ls : List (List Char)}
    (hfeed : ∀ l ∈ ls, '\n' ∉ l) (hkeep : ∀ l ∈ ls, keep l = false → Spaces l) :
    ∃ w t, joinLines ls = w ++ t ∧ Spaces w ∧ Respaced (joinLines (ls.filter keep)) t := by
  induction ls with
  | nil => exact ⟨[], [], rfl, .nil, .done .nil⟩
  | cons l ls ih =>
      obtain ⟨hl, hls⟩ := List.forall_mem_cons.mp hfeed
      obtain ⟨hk, hks⟩ := List.forall_mem_cons.mp hkeep
      obtain ⟨w, t, hjoin, hw, ht⟩ := ih hls hks
      cases ls with
      | nil =>
          cases hkl : keep l with
          | false =>
              have hr : Respaced [] [] := .done .nil
              exact ⟨l, [], by simp [joinLines], hk hkl, by simpa [hkl, joinLines] using hr⟩
          | true =>
              have hr : Respaced (l ++ []) (l ++ []) := .append hl (.done .nil)
              exact ⟨[], l, rfl, .nil, by simpa [hkl, joinLines] using hr⟩
      | cons k ls =>
          have hcons : joinLines (l :: k :: ls) = l ++ '\n' :: (w ++ t) := by
            rw [joinLines, hjoin]
            simp
          cases hkl : keep l with
          | false =>
              refine ⟨l ++ '\n' :: w, t, by simp [hcons], (hk hkl).append hw.feed, ?_⟩
              simpa [hkl] using ht
          | true =>
              refine ⟨[], l ++ '\n' :: (w ++ t), by simp [hcons], .nil, ?_⟩
              cases hkept : (k :: ls).filter keep with
              | nil =>
                  rw [hkept] at ht
                  have hend : Respaced [] ('\n' :: (w ++ t)) := .done (hw.append ht.spaces).feed
                  simpa [hkl, hkept, joinLines] using hend.append hl
              | cons m ms =>
                  rw [hkept] at ht
                  have hnext : Respaced ('\n' :: joinLines (m :: ms)) ('\n' :: (w ++ t)) :=
                    .feed (v := []) .nil hw ht
                  rw [List.filter_cons_of_pos hkl, hkept, joinLines]
                  · exact hnext.append hl
                  · simp

end QueueScript.Json
