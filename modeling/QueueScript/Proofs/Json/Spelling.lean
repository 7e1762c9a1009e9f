import QueueScript.Json.Reader

namespace QueueScript.Json

theorem bind_eq_ok {ε α β : Type} {x : Except ε α} {f : α → Except ε β} {b : β} :
    (x >>= f) = .ok b ↔ ∃ a, x = .ok a ∧ f a = .ok b := by
  cases x with
  | error e => simp [bind, Except.bind]
  | ok a => simp [bind, Except.bind]

/-- A text, its closing quote included, spells some characters. -/
inductive Spells : List Char → List Char → Prop
  | quote : Spells ['"'] []
  | plain {c : Char} {q cs : List Char} : c ≠ '"' → c ≠ '\\' → 0x20 ≤ c.toNat → Spells q cs →
      Spells (c :: q) (c :: cs)
  | letter {c x : Char} {q cs : List Char} : c ≠ 'u' → escaped? c = some x → Spells q cs →
      Spells ('\\' :: c :: q) (x :: cs)
  | code {a b c d : Char} {n : Nat} {q cs : List Char} : hex4? a b c d = some n →
      isLowSurrogate n = false → isHighSurrogate n = false → Spells q cs →
      Spells ('\\' :: 'u' :: a :: b :: c :: d :: q) (Char.ofNat n :: cs)
  | pair {a b c d a' b' c' d' : Char} {n m : Nat} {q cs : List Char} : hex4? a b c d = some n →
      isLowSurrogate n = false → isHighSurrogate n = true → hex4? a' b' c' d' = some m →
      isLowSurrogate m = true → Spells q cs →
      Spells ('\\' :: 'u' :: a :: b :: c :: d :: '\\' :: 'u' :: a' :: b' :: c' :: d' :: q)
        (surrogatePair n m :: cs)

theorem readString_append {q cs : List Char} (h : Spells q cs) (r : List Char) :
    readString (q ++ r) = .ok (cs, r) := by
  induction h with
  | quote => simp [readString]
  | @plain c q cs hq hb hc _ ih =>
      have hlow := Nat.not_lt.mpr hc
      rw [List.cons_append, readString.eq_7 c (q ++ r) hq (fun h => absurd h hb)
        (fun _ h => absurd h hb) (fun _ _ h => absurd h hb), if_neg hlow, ih]
      rfl
  | letter hu hx _ ih =>
      simp only [List.cons_append, readString, hx, ih]
      rfl
  | code hn hl hh _ ih =>
      simp only [List.cons_append, readString, hn, hl, hh, ih]
      rfl
  | pair hn hl hh hm hml _ ih =>
      simp only [List.cons_append, readString, hn, hl, hh, hm, hml, ih]
      rfl

theorem ok_of_push {x : Char} {o : Except Fault (List Char × List Char)} {cs r : List Char}
    (h : (do let (cs, rest) ← o; return (x :: cs, rest)) = Except.ok (cs, r)) :
    ∃ cs', o = .ok (cs', r) ∧ cs = x :: cs' := by
  obtain ⟨⟨cs', r'⟩, ho, he⟩ := bind_eq_ok.mp h
  obtain ⟨rfl, rfl⟩ := Prod.mk.inj (Except.ok.inj he)
  exact ⟨cs', ho, rfl⟩

theorem spells_of_readString {s cs r : List Char} (h : readString s = .ok (cs, r)) :
    ∃ q, s = q ++ r ∧ Spells q cs := by
  fun_induction readString s generalizing cs r with
  | case2 s =>
      obtain ⟨rfl, rfl⟩ := Prod.mk.inj (Except.ok.inj h)
      exact ⟨['"'], rfl, .quote⟩
  | case9 a b c d n hn hl hh a' b' c' d' q m hm hml ih =>
      obtain ⟨cs', hq, rfl⟩ := ok_of_push h
      obtain ⟨p, rfl, hp⟩ := ih hq
      exact ⟨_, rfl, .pair hn (by simpa using hl) hh hm hml hp⟩
  | case14 a b c d q n hn hl hh ih =>
      obtain ⟨cs', hq, rfl⟩ := ok_of_push h
      obtain ⟨p, rfl, hp⟩ := ih hq
      exact ⟨_, rfl, .code hn (by simpa using hl) (by simpa using hh) hp⟩
  | case17 c s hu x hx ih =>
      obtain ⟨cs', hq, rfl⟩ := ok_of_push h
      obtain ⟨p, rfl, hp⟩ := ih hq
      exact ⟨_, rfl, .letter hu hx hp⟩
  | case19 c s hquote _ _ hback hc ih =>
      obtain ⟨cs', hq, rfl⟩ := ok_of_push h
      obtain ⟨p, rfl, hp⟩ := ih hq
      refine ⟨c :: p, rfl, .plain hquote ?_ (Nat.not_lt.mp hc) hp⟩
      -- A backslash is never read as itself: at least the closing quote follows it.
      rintro rfl
      cases hp <;> exact hback _ _ rfl rfl
  | _ => cases h

theorem Spells.eq_append_quote {q cs : List Char} (h : Spells q cs) : ∃ p, q = p ++ ['"'] := by
  induction h with
  | quote => exact ⟨[], rfl⟩
  | plain _ _ _ _ ih =>
      obtain ⟨p, rfl⟩ := ih
      exact ⟨_ :: p, rfl⟩
  | letter _ _ _ ih =>
      obtain ⟨p, rfl⟩ := ih
      exact ⟨_ :: _ :: p, rfl⟩
  | code _ _ _ _ ih =>
      obtain ⟨p, rfl⟩ := ih
      exact ⟨_ :: _ :: _ :: _ :: _ :: _ :: p, rfl⟩
  | pair _ _ _ _ _ _ ih =>
      obtain ⟨p, rfl⟩ := ih
      exact ⟨_ :: _ :: _ :: _ :: _ :: _ :: _ :: _ :: _ :: _ :: _ :: _ :: p, rfl⟩

theorem hexDigit?_ne {c : Char} {n : Nat} (h : hexDigit? c = some n) :
    c ≠ '"' ∧ c ≠ '\\' ∧ c ≠ '\n' := by
  refine ⟨?_, ?_, ?_⟩
  · rintro rfl
    exact absurd h (by simp [hexDigit?])
  · rintro rfl
    exact absurd h (by simp [hexDigit?])
  · rintro rfl
    exact absurd h (by simp [hexDigit?])

theorem hex4?_eq_some {a b c d : Char} {n : Nat} (h : hex4? a b c d = some n) :
    ∃ i j k l, hexDigit? a = some i ∧ hexDigit? b = some j ∧ hexDigit? c = some k ∧
      hexDigit? d = some l ∧ n = ((i * 16 + j) * 16 + k) * 16 + l := by
  simp only [hex4?, Option.bind_eq_bind, Option.bind_eq_some_iff, Option.pure_def,
    Option.some.injEq] at h
  obtain ⟨i, hi, j, hj, k, hk, l, hl, rfl⟩ := h
  exact ⟨i, j, k, l, hi, hj, hk, hl, rfl⟩

theorem hex4?_ne {a b c d : Char} {n : Nat} (h : hex4? a b c d = some n) :
    ∀ x ∈ [a, b, c, d], x ≠ '"' ∧ x ≠ '\\' ∧ x ≠ '\n' := by
  obtain ⟨i, j, k, l, ha, hb, hc, hd, _⟩ := hex4?_eq_some h
  simp [hexDigit?_ne ha, hexDigit?_ne hb, hexDigit?_ne hc, hexDigit?_ne hd]

theorem escaped?_ne {c x : Char} (h : escaped? c = some x) : c ≠ '\n' := by
  rintro rfl
  exact absurd h (by simp [escaped?])

theorem Spells.not_mem {q cs : List Char} (h : Spells q cs) : '\n' ∉ q := by
  induction h with
  | quote => decide
  | @plain c q cs _ _ hc _ ih =>
      have hne : '\n' ≠ c := by
        rintro rfl
        exact absurd hc (by decide)
      simp [hne, ih]
  | letter _ hx _ ih => simp [ih, (escaped?_ne hx).symm]
  | code hn _ _ _ ih =>
      have hne := hex4?_ne hn
      simp only [List.forall_mem_cons] at hne
      simp [ih, hne.1.2.2.symm, hne.2.1.2.2.symm, hne.2.2.1.2.2.symm, hne.2.2.2.1.2.2.symm]
  | pair hn _ _ hm _ _ ih =>
      have hne := hex4?_ne hn
      have hme := hex4?_ne hm
      simp only [List.forall_mem_cons] at hne hme
      simp [ih, hne.1.2.2.symm, hne.2.1.2.2.symm, hne.2.2.1.2.2.symm, hne.2.2.2.1.2.2.symm,
        hme.1.2.2.symm, hme.2.1.2.2.symm, hme.2.2.1.2.2.symm, hme.2.2.2.1.2.2.symm]

end QueueScript.Json
