import QueueScript.Proofs.Json.Nesting
/-!
Blanks at the ends of lines do not matter: a text whose line feeds are widened by blanks of any kind is
read as the same value, or refused like the first one.
-/

namespace QueueScript.Json

open Text (isDigit)

def Spaces (w : List Char) : Prop := ∀ c ∈ w, isSpace c = true

theorem Spaces.nil : Spaces [] := by
  simp [Spaces]

/-- The second text is the first one with blanks put around its line feeds and at its end. -/
inductive Respaced : List Char → List Char → Prop
  | done {w : List Char} : Spaces w → Respaced [] w
  | char {c : Char} {s t : List Char} : c ≠ '\n' → Respaced s t → Respaced (c :: s) (c :: t)
  | feed {v w s t : List Char} : Spaces v → Spaces w → Respaced s t →
      Respaced ('\n' :: s) (v ++ '\n' :: (w ++ t))

theorem isSpace_cases {c : Char} (h : isSpace c = true) :
    c = ' ' ∨ c = '\n' ∨ c = '\t' ∨ c = '\r' := by
  simpa [isSpace, or_assoc] using h

def Stop (s : List Char) : Prop := ∀ c, s.head? = some c → isSpace c = true

theorem stop_nil : Stop [] := by
  intro c hc
  cases hc

theorem stop_cons {c : Char} {s : List Char} (h : isSpace c = true) : Stop (c :: s) := by
  intro x hx
  obtain rfl : c = x := by simpa using hx
  exact h

theorem Spaces.stop {w : List Char} (h : Spaces w) : Stop w := by
  intro c hc
  exact h c (List.mem_of_head? hc)

theorem Spaces.stop_append {w s : List Char} (h : Spaces w) (hs : Stop s) : Stop (w ++ s) := by
  cases w with
  | nil => exact hs
  | cons c w => exact stop_cons (h c (List.mem_cons_self ..))

theorem stop_cases {s : List Char} (h : Stop s) : s = [] ∨ ∃ c r, s = c :: r ∧ isSpace c = true := by
  cases s with
  | nil => exact .inl rfl
  | cons c r => exact .inr ⟨c, r, rfl, h c rfl⟩

theorem Respaced.head {s t : List Char} (h : Respaced s t) :
    (∃ c s' t', s = c :: s' ∧ t = c :: t' ∧ Respaced s' t') ∨ (Stop s ∧ Stop t) := by
  cases h with
  | done hw => exact .inr ⟨stop_nil, hw.stop⟩
  | char _ h => exact .inl ⟨_, _, _, rfl, rfl, h⟩
  | feed hv _ _ => exact .inr ⟨stop_cons rfl, hv.stop_append (stop_cons rfl)⟩

theorem skipSpace_append {w : List Char} (h : Spaces w) (s : List Char) :
    skipSpace (w ++ s) = skipSpace s := List.dropWhile_append_of_pos h

theorem Spaces.skipSpace_eq {w : List Char} (h : Spaces w) : skipSpace w = [] :=
  List.dropWhile_eq_nil_iff.mpr h

theorem Respaced.skipSpace {s t : List Char} (h : Respaced s t) :
    (skipSpace s = [] ∧ skipSpace t = []) ∨
      ∃ c s' t', skipSpace s = c :: s' ∧ skipSpace t = c :: t' ∧ c ≠ '\n' ∧ Respaced s' t' := by
  induction h with
  | done hw => exact .inl ⟨rfl, hw.skipSpace_eq⟩
  | @char c s t hc h ih =>
      by_cases hs : isSpace c = true
      · simpa [Json.skipSpace, hs] using ih
      · exact .inr ⟨c, s, t, by simp [Json.skipSpace, hs], by simp [Json.skipSpace, hs], hc, h⟩
  | @feed v w s t hv hw h ih =>
      have hs : Json.skipSpace ('\n' :: s) = Json.skipSpace s := rfl
      have ht : Json.skipSpace ('\n' :: (w ++ t)) = Json.skipSpace (w ++ t) := rfl
      rw [hs, skipSpace_append hv, ht, skipSpace_append hw]
      exact ih

inductive Agree {α β : Type} (R : α → β → Prop) : Except Fault α → Except Fault β → Prop
  | ok {a : α} {b : β} : R a b → Agree R (.ok a) (.ok b)
  | error {e e' : Fault} : Agree R (.error e) (.error e')

theorem Agree.bind {α β γ δ : Type} {R : α → β → Prop} {S : γ → δ → Prop} {x : Except Fault α}
    {y : Except Fault β} {f : α → Except Fault γ} {g : β → Except Fault δ} (h : Agree R x y)
    (hf : ∀ a b, x = .ok a → y = .ok b → R a b → Agree S (f a) (g b)) :
    Agree S (x >>= f) (y >>= g) := by
  cases h with
  | ok hr => exact hf _ _ rfl rfl hr
  | error => exact .error

theorem Agree.of_errors {α β : Type} {R : α → β → Prop} {x : Except Fault α} {y : Except Fault β}
    (hx : ∃ e, x = .error e) (hy : ∃ e, y = .error e) : Agree R x y := by
  obtain ⟨e, rfl⟩ := hx
  obtain ⟨e', rfl⟩ := hy
  exact .error

def SameRead {α : Type} (p q : α × List Char) : Prop := p.1 = q.1 ∧ Respaced p.2 q.2

theorem readLiteral_stop {α : Type} (a : α) {x : Char} {xs s : List Char} (hx : isSpace x = false)
    (hs : Stop s) : ∃ e, readLiteral a (x :: xs) s = .error e := by
  rcases stop_cases hs with rfl | ⟨c, r, rfl, hc⟩
  · exact ⟨_, rfl⟩
  · have hne : c ≠ x := by
      rintro rfl
      simp [hc] at hx
    exact ⟨_, if_neg hne⟩

theorem readLiteral_respaced {α : Type} (a : α) {xs s t : List Char}
    (hxs : ∀ x ∈ xs, isSpace x = false) (h : Respaced s t) :
    Agree SameRead (readLiteral a xs s) (readLiteral a xs t) := by
  induction xs generalizing s t with
  | nil => exact .ok ⟨rfl, h⟩
  | cons x xs ih =>
      obtain ⟨hx, hxs⟩ := List.forall_mem_cons.mp hxs
      rcases h.head with ⟨c, s', t', rfl, rfl, hst⟩ | ⟨hs, ht⟩
      · simp only [readLiteral]
        split
        · exact ih hxs hst
        · exact .error
      · exact .of_errors (readLiteral_stop a hx hs) (readLiteral_stop a hx ht)

theorem Respaced.exists_append {q r t : List Char} (h : Respaced (q ++ r) t) (hq : '\n' ∉ q) :
    ∃ r', t = q ++ r' ∧ Respaced r r' := by
  induction q generalizing t with
  | nil => exact ⟨t, rfl, h⟩
  | cons c q ih =>
      obtain ⟨hc, hq⟩ : '\n' ≠ c ∧ '\n' ∉ q := by simpa using hq
      cases h with
      | char _ h =>
          obtain ⟨r', rfl, hr⟩ := ih h hq
          exact ⟨r', rfl, hr⟩
      | feed => exact absurd rfl hc

theorem Spaces.append_feed_ne {v q : List Char} {c : Char} (hv : Spaces v) (hq : '\n' ∉ q)
    (hc : isSpace c = false) (r t : List Char) : q ++ c :: r ≠ v ++ '\n' :: t := by
  intro he
  rcases List.append_eq_append_iff.mp he with ⟨x, rfl, hx⟩ | ⟨x, rfl, hx⟩
  · cases x with
    | nil =>
        obtain rfl : c = '\n' := (List.cons.inj hx).1
        simp [isSpace] at hc
    | cons y x =>
        obtain rfl : c = y := (List.cons.inj hx).1
        simp [hv c (by simp)] at hc
  · cases x with
    | nil =>
        obtain rfl : '\n' = c := (List.cons.inj hx).1
        simp [isSpace] at hc
    | cons y x =>
        obtain rfl : '\n' = y := (List.cons.inj hx).1
        simp at hq

theorem Respaced.exists_append_left {s q r : List Char} {c : Char} (h : Respaced s (q ++ c :: r))
    (hq : '\n' ∉ q) (hc : isSpace c = false) : ∃ r', s = q ++ c :: r' ∧ Respaced r' r := by
  induction q generalizing s with
  | nil =>
      rw [List.nil_append] at h
      generalize ht : c :: r = t at h
      cases h with
      | done hw =>
          subst ht
          simp [hw c (by simp)] at hc
      | char _ h =>
          obtain ⟨rfl, rfl⟩ := List.cons.inj ht
          exact ⟨_, rfl, h⟩
      | feed hv _ _ => exact absurd ht (hv.append_feed_ne (q := []) hq hc _ _)
  | cons a q ih =>
      have hq' : '\n' ∉ q := fun hm => hq (List.mem_cons_of_mem _ hm)
      generalize ht : a :: q ++ c :: r = t at h
      cases h with
      | done hw =>
          subst ht
          simp [hw c (by simp)] at hc
      | char _ h =>
          obtain ⟨rfl, rfl⟩ := List.cons.inj ht
          obtain ⟨r', rfl, hr⟩ := ih h hq'
          exact ⟨r', rfl, hr⟩
      | feed hv _ _ => exact absurd ht (hv.append_feed_ne hq hc _ _)

theorem readString_respaced {s t : List Char} (h : Respaced s t) :
    Agree SameRead (readString s) (readString t) := by
  cases hs : readString s with
  | ok p =>
      obtain ⟨q, rfl, hq⟩ := spells_of_readString hs
      obtain ⟨r', rfl, hr⟩ := h.exists_append hq.not_mem
      rw [readString_append hq]
      exact .ok ⟨rfl, hr⟩
  | error e =>
      cases ht : readString t with
      | error e' => exact .error
      | ok p =>
          obtain ⟨q, rfl, hq⟩ := spells_of_readString ht
          obtain ⟨p', rfl⟩ := hq.eq_append_quote
          have hp : '\n' ∉ p' := fun hm => hq.not_mem (List.mem_append_left _ hm)
          rw [List.append_assoc] at h
          obtain ⟨r', rfl, _⟩ := h.exists_append_left hp (by decide)
          rw [List.append_cons, readString_append hq] at hs
          cases hs

theorem isDigit_of_isSpace {c : Char} (h : isSpace c = true) : isDigit c = false := by
  rcases isSpace_cases h with rfl | rfl | rfl | rfl <;> decide

theorem stop_takeWhile {s : List Char} (h : Stop s) :
    s.takeWhile isDigit = [] ∧ s.dropWhile isDigit = s := by
  rcases stop_cases h with rfl | ⟨c, r, rfl, hc⟩
  · exact ⟨rfl, rfl⟩
  · simp [isDigit_of_isSpace hc]

theorem Respaced.digits {s t : List Char} (h : Respaced s t) :
    s.takeWhile isDigit = t.takeWhile isDigit ∧
      Respaced (s.dropWhile isDigit) (t.dropWhile isDigit) := by
  induction h with
  | done hw =>
      obtain ⟨htake, hdrop⟩ := stop_takeWhile hw.stop
      exact ⟨htake.symm, hdrop.symm ▸ .done hw⟩
  | @char c s t hc h ih =>
      by_cases hd : isDigit c = true
      · simpa [hd] using ih
      · simpa [hd] using Respaced.char hc h
  | @feed v w s t hv hw h _ =>
      obtain ⟨htake, hdrop⟩ := stop_takeWhile (hv.stop_append (stop_cons (c := '\n') (s := w ++ t) rfl))
      rw [htake, hdrop]
      exact ⟨rfl, .feed hv hw h⟩

theorem readScaled_respaced (negative : Bool) (n : Nat) (e : Int) {s t : List Char}
    (h : Respaced s t) :
    Agree SameRead (readScaled negative n e s) (readScaled negative n e t) := by
  simp only [readScaled]
  split
  · exact .ok ⟨rfl, h⟩
  · exact .error

theorem exponentSign_stop {s : List Char} (h : Stop s) : exponentSign s = (false, s) := by
  rcases stop_cases h with rfl | ⟨c, r, rfl, hc⟩
  · rfl
  · rcases isSpace_cases hc with rfl | rfl | rfl | rfl <;> rfl

theorem Respaced.exponentSign {s t : List Char} (h : Respaced s t) :
    (exponentSign s).1 = (exponentSign t).1 ∧ Respaced (exponentSign s).2 (exponentSign t).2 := by
  rcases h.head with ⟨c, s', t', rfl, rfl, hst⟩ | ⟨hs, ht⟩
  · by_cases hp : c = '+'
    · subst hp
      exact ⟨rfl, hst⟩
    · by_cases hm : c = '-'
      · subst hm
        exact ⟨rfl, hst⟩
      · simpa [Json.exponentSign, hp, hm] using h
  · rw [exponentSign_stop hs, exponentSign_stop ht]
    exact ⟨rfl, h⟩

theorem readPower_respaced (negative : Bool) (n : Nat) (e : Int) (down : Bool) {s t : List Char}
    (h : Respaced s t) :
    Agree SameRead (readPower negative n e down s) (readPower negative n e down t) := by
  have hstop {u : List Char} (hu : Stop u) : ∃ f, readPower negative n e down u = .error f := by
    rcases stop_cases hu with rfl | ⟨c, r, rfl, hc⟩
    · exact ⟨_, rfl⟩
    · exact ⟨_, by rw [readPower, isDigit_of_isSpace hc]; rfl⟩
  rcases h.head with ⟨c, s', t', rfl, rfl, _⟩ | ⟨hs, ht⟩
  · obtain ⟨htake, hdrop⟩ := h.digits
    simp only [readPower, htake]
    split
    · split
      · exact readScaled_respaced _ _ _ hdrop
      · split
        · exact .error
        · exact .ok ⟨rfl, hdrop⟩
    · exact .error
  · exact .of_errors (hstop hs) (hstop ht)

theorem readExponent_respaced (negative : Bool) (n : Nat) (e : Int) {s t : List Char}
    (h : Respaced s t) :
    Agree SameRead (readExponent negative n e s) (readExponent negative n e t) := by
  obtain ⟨hsign, hrest⟩ := h.exponentSign
  rw [readExponent_eq, readExponent_eq, hsign]
  exact readPower_respaced _ _ _ _ hrest

def fractionTail (negative : Bool) (n : Nat) (e : Int) : Reader Number := fun rest =>
  match rest with
  | 'e' :: r => readExponent negative n e r
  | 'E' :: r => readExponent negative n e r
  | _ => readScaled negative n e rest

theorem fractionTail_respaced (negative : Bool) (n : Nat) (e : Int) {s t : List Char}
    (h : Respaced s t) :
    Agree SameRead (fractionTail negative n e s) (fractionTail negative n e t) := by
  have hstop {u : List Char} (hu : Stop u) :
      fractionTail negative n e u = readScaled negative n e u := by
    rcases stop_cases hu with rfl | ⟨c, r, rfl, hc⟩
    · rfl
    · rcases isSpace_cases hc with rfl | rfl | rfl | rfl <;> rfl
  rcases h.head with ⟨c, s', t', rfl, rfl, hst⟩ | ⟨hs, ht⟩
  · by_cases hl : c = 'e'
    · subst hl
      exact readExponent_respaced _ _ _ hst
    · by_cases hu : c = 'E'
      · subst hu
        exact readExponent_respaced _ _ _ hst
      · simpa [fractionTail, hl, hu] using readScaled_respaced negative n e h
  · rw [hstop hs, hstop ht]
    exact readScaled_respaced _ _ _ h

theorem readFraction_respaced (negative : Bool) (n : Nat) (e : Int) {s t : List Char}
    (h : Respaced s t) :
    Agree SameRead (readFraction negative n e s) (readFraction negative n e t) := by
  obtain ⟨htake, hdrop⟩ := h.digits
  simp only [readFraction, htake]
  cases t.takeWhile isDigit with
  | nil => cases s.dropWhile isDigit <;> cases t.dropWhile isDigit <;> exact .error
  | cons c cs => exact fractionTail_respaced negative _ _ hdrop

def numberTail (negative : Bool) (n : Nat) (excess : List Char) : Reader Number
  | '.' :: s => readFraction negative n excess.length s
  | 'e' :: s => readExponent negative n excess.length s
  | 'E' :: s => readExponent negative n excess.length s
  | s =>
      if excess.isEmpty then .ok (.ofWhole negative n, s)
      else readScaled negative n excess.length s

theorem numberTail_respaced (negative : Bool) (n : Nat) (excess : List Char) {s t : List Char}
    (h : Respaced s t) :
    Agree SameRead (numberTail negative n excess s) (numberTail negative n excess t) := by
  have hplain : Agree SameRead
      (if excess.isEmpty then .ok (.ofWhole negative n, s)
        else readScaled negative n excess.length s)
      (if excess.isEmpty then .ok (.ofWhole negative n, t)
        else readScaled negative n excess.length t) := by
    split
    · exact .ok ⟨rfl, h⟩
    · exact readScaled_respaced _ _ _ h
  have hstop {u : List Char} (hu : Stop u) : numberTail negative n excess u =
      if excess.isEmpty then .ok (.ofWhole negative n, u)
      else readScaled negative n excess.length u := by
    rcases stop_cases hu with rfl | ⟨c, r, rfl, hc⟩
    · rfl
    · rcases isSpace_cases hc with rfl | rfl | rfl | rfl <;> rfl
  rcases h.head with ⟨c, s', t', rfl, rfl, hst⟩ | ⟨hs, ht⟩
  · by_cases hp : c = '.'
    · subst hp
      exact readFraction_respaced _ _ _ hst
    · by_cases hl : c = 'e'
      · subst hl
        exact readExponent_respaced _ _ _ hst
      · by_cases hu : c = 'E'
        · subst hu
          exact readExponent_respaced _ _ _ hst
        · simpa [numberTail, hp, hl, hu] using hplain
  · rw [hstop hs, hstop ht]
    exact hplain

theorem Respaced.head_isDigit {s t : List Char} (h : Respaced s t) :
    s.head?.any isDigit = t.head?.any isDigit := by
  have hstop {u : List Char} (hu : Stop u) : u.head?.any isDigit = false := by
    rcases stop_cases hu with rfl | ⟨c, r, rfl, hc⟩
    · rfl
    · exact isDigit_of_isSpace hc
  rcases h.head with ⟨c, s', t', rfl, rfl, _⟩ | ⟨hs, ht⟩
  · rfl
  · rw [hstop hs, hstop ht]

theorem readNumber_stop (negative : Bool) {s : List Char} (h : Stop s) :
    ∃ f, readNumber negative s = .error f := by
  rcases stop_cases h with rfl | ⟨c, r, rfl, hc⟩
  · exact ⟨_, rfl⟩
  · rcases isSpace_cases hc with rfl | rfl | rfl | rfl <;> exact ⟨_, rfl⟩

theorem readNumber_respaced (negative : Bool) {s t : List Char} (h : Respaced s t) :
    Agree SameRead (readNumber negative s) (readNumber negative t) := by
  rcases h.head with ⟨c, s', t', rfl, rfl, hst⟩ | ⟨hs, ht⟩
  · obtain ⟨htake, hdrop⟩ := h.digits
    simp only [readNumber, htake, hst.head_isDigit]
    split
    · exact .error
    · split
      · exact .error
      · exact numberTail_respaced negative _ _ hdrop
  · exact .of_errors (readNumber_stop negative hs) (readNumber_stop negative ht)

inductive SameNext : Next → Next → Prop
  | done {r r' : List Char} : Respaced r r' → SameNext (.done r) (.done r')
  | more {r r' : List Char} : Respaced r r' → SameNext (.more r) (.more r')

theorem nextItem_respaced (first : Bool) {s t : List Char} (h : Respaced s t) :
    Agree SameNext (nextItem first s) (nextItem first t) := by
  rcases h.skipSpace with ⟨hs, ht⟩ | ⟨c, s', t', hs, ht, hc, hst⟩
  · simp only [nextItem, hs, ht]
    exact .error
  · by_cases hclose : c = ']'
    · subst hclose
      simp only [nextItem, hs, ht]
      exact .ok (.done hst)
    · simp only [nextItem, hs, ht]
      split
      · exact .ok (.more (.char hc hst))
      · split
        · rcases hst.skipSpace with ⟨hs', ht'⟩ | ⟨x, u, v, hs', ht', hx, huv⟩
          · simp only [hs', ht']
            exact .error
          · by_cases hxc : x = ']'
            · subst hxc
              simp only [hs', ht']
              exact .error
            · have hsame : SameNext (.more (x :: u)) (.more (x :: v)) := .more (.char hx huv)
              simpa [hs', ht', hxc] using Agree.ok hsame
        · exact .error

theorem openKey_respaced {c : Char} {s t : List Char} (h : Respaced s t) :
    Agree SameNext (openKey (c :: s)) (openKey (c :: t)) := by
  by_cases hc : c = '"'
  · subst hc
    exact .ok (.more h)
  · simpa [openKey, hc] using Agree.error

theorem nextKey_respaced (first : Bool) {s t : List Char} (h : Respaced s t) :
    Agree SameNext (nextKey first s) (nextKey first t) := by
  rcases h.skipSpace with ⟨hs, ht⟩ | ⟨c, s', t', hs, ht, _, hst⟩
  · simp only [nextKey, hs, ht]
    exact .error
  · by_cases hclose : c = '}'
    · subst hclose
      simp only [nextKey, hs, ht]
      exact .ok (.done hst)
    · simp only [nextKey, hs, ht]
      split
      · exact openKey_respaced hst
      · split
        · rcases hst.skipSpace with ⟨hs', ht'⟩ | ⟨x, u, v, hs', ht', _, huv⟩
          · simp only [hs', ht']
            exact .error
          · by_cases hxc : x = '}'
            · subst hxc
              simp only [hs', ht']
              exact .error
            · simpa [hs', ht', hxc] using openKey_respaced huv
        · exact .error

theorem colon_respaced {s t : List Char} (h : Respaced s t) :
    Agree Respaced (colon s) (colon t) := by
  rcases h.skipSpace with ⟨hs, ht⟩ | ⟨c, s', t', hs, ht, _, hst⟩
  · simp only [colon, hs, ht]
    exact .error
  · by_cases hc : c = ':'
    · subst hc
      simp only [colon, hs, ht]
      exact .ok hst
    · simp only [colon, hs, ht]
      exact .error

def Insensitive {α : Type} (read : Reader α) : Prop :=
  ∀ s t, Respaced s t → Agree SameRead (read s) (read t)

theorem readItems_respaced {α : Type} {read : Reader α} (hread : Insensitive read)
    (htake : TakesNested read) {b c : Nat} {first : Bool} {s t : List Char} (h : Respaced s t)
    (hb : s.length < b) (hc : t.length < c) :
    Agree SameRead (readItems read b first s) (readItems read c first t) := by
  -- The two bounds differ, but neither is ever reached.
  induction b generalizing c first s t with
  | zero => omega
  | succ b ih =>
      obtain ⟨c, rfl⟩ : ∃ n, c = n + 1 := ⟨c - 1, by omega⟩
      simp only [readItems]
      refine (nextItem_respaced first h).bind ?_
      intro x y hx hy hxy
      cases hxy with
      | done hr => exact .ok ⟨rfl, hr⟩
      | more hr =>
          obtain ⟨_, rfl, _⟩ := nextItem_more hx
          obtain ⟨_, rfl, _⟩ := nextItem_more hy
          refine (hread _ _ hr).bind ?_
          rintro ⟨a, u⟩ ⟨a', v⟩ hu hv ⟨rfl, huv⟩
          obtain ⟨p, rfl, hp, _⟩ := htake _ _ _ hu
          obtain ⟨p', rfl, hp', _⟩ := htake _ _ _ hv
          have hlen := List.length_pos_iff.mpr hp
          have hlen' := List.length_pos_iff.mpr hp'
          simp only [List.length_append] at hb hc
          refine (ih huv (by simp only; omega) (by simp only; omega)).bind ?_
          rintro ⟨as, u'⟩ ⟨as', v'⟩ _ _ ⟨rfl, huv'⟩
          exact .ok ⟨rfl, huv'⟩

theorem readMembers_respaced {σ : Type} {member : σ → String → Reader σ}
    (hmember : ∀ acc key, Insensitive (member acc key))
    (htake : ∀ acc key, TakesNested (member acc key)) {b c : Nat} {first : Bool} {acc : σ}
    {s t : List Char} (h : Respaced s t) (hb : s.length < b) (hc : t.length < c) :
    Agree SameRead (readMembers member b first acc s) (readMembers member c first acc t) := by
  induction b generalizing c first acc s t with
  | zero => omega
  | succ b ih =>
      obtain ⟨c, rfl⟩ : ∃ n, c = n + 1 := ⟨c - 1, by omega⟩
      simp only [readMembers]
      refine (nextKey_respaced first h).bind ?_
      intro x y hx hy hxy
      cases hxy with
      | done hr => exact .ok ⟨rfl, hr⟩
      | more hr =>
          obtain ⟨_, rfl, _⟩ := nextKey_more hx
          obtain ⟨_, rfl, _⟩ := nextKey_more hy
          refine (readString_respaced hr).bind ?_
          rintro ⟨key, u⟩ ⟨key', v⟩ hu hv ⟨rfl, huv⟩
          obtain ⟨_, rfl, _⟩ := spells_of_readString hu
          obtain ⟨_, rfl, _⟩ := spells_of_readString hv
          refine (hmember acc _ _ _ huv).bind ?_
          rintro ⟨acc', u'⟩ ⟨acc'', v'⟩ hu' hv' ⟨rfl, huv'⟩
          obtain ⟨_, rfl, _, _⟩ := htake _ _ _ _ _ hu'
          obtain ⟨_, rfl, _, _⟩ := htake _ _ _ _ _ hv'
          simp only [List.length_append, List.length_cons] at hb hc
          exact ih huv' (by simp only; omega) (by simp only; omega)

theorem readMember_respaced {read : Reader Json} (hread : Insensitive read)
    (ms : Table String Json) (key : String) : Insensitive (readMember read ms key) := by
  intro s t h
  refine (colon_respaced h).bind ?_
  intro u v _ _ huv
  refine (hread _ _ huv).bind ?_
  rintro ⟨a, u'⟩ ⟨a', v'⟩ _ _ ⟨rfl, huv'⟩
  exact .ok ⟨rfl, huv'⟩

def readFrom (depth : Nat) (c : Char) : Reader Json := fun r =>
  if c = 'n' then readLiteral .null ['u', 'l', 'l'] r
  else if c = 't' then readLiteral (.bool true) ['r', 'u', 'e'] r
  else if c = 'f' then readLiteral (.bool false) ['a', 'l', 's', 'e'] r
  else if c = '"' then do
    let (cs, r) ← readString r
    return (.string (String.ofList cs), r)
  else if c = '-' then do
    let (n, r) ← readNumber true r
    return (.number n, r)
  else if c = '[' then
    match depth with
    | 0 => .error (.at .tooDeep ('[' :: r))
    | depth + 1 => do
        let (vs, r) ← readItems (readValue depth) (r.length + 1) true r
        return (.array vs, r)
  else if c = '{' then
    match depth with
    | 0 => .error (.at .tooDeep ('{' :: r))
    | depth + 1 => do
        let (ms, r) ← readMembers (readMember (readValue depth)) (r.length + 1) true [] r
        return (.object ms, r)
  else if isDigit c then do
    let (n, r) ← readNumber false (c :: r)
    return (.number n, r)
  else .error (.at .expectedValue (c :: r))

theorem readValue_of_skipSpace {depth : Nat} {s r : List Char} {c : Char}
    (h : skipSpace s = c :: r) : readValue depth s = readFrom depth c r := by
  rw [readValue.eq_def]
  dsimp only
  rw [h]
  split
  · contradiction
  all_goals
    rename_i hcons
    obtain ⟨rfl, rfl⟩ := List.cons.inj hcons
  · rfl
  · rfl
  · rfl
  · rfl
  · rfl
  · rfl
  · rfl
  · simp_all [readFrom]

theorem readValue_respaced (depth : Nat) : Insensitive (readValue depth) := by
  induction depth using Nat.strong_induction_on with
  | _ depth ih =>
      intro s t h
      rcases h.skipSpace with ⟨hs, ht⟩ | ⟨c, s', t', hs, ht, hc, hst⟩
      · rw [readValue.eq_def, readValue.eq_def depth t]
        simp only [hs, ht]
        exact .error
      · rw [readValue_of_skipSpace hs, readValue_of_skipSpace ht]
        simp only [readFrom]
        split
        · exact readLiteral_respaced _ (by simp [isSpace]) hst
        split
        · exact readLiteral_respaced _ (by simp [isSpace]) hst
        split
        · exact readLiteral_respaced _ (by simp [isSpace]) hst
        split
        · refine (readString_respaced hst).bind ?_
          rintro ⟨cs, u⟩ ⟨cs', v⟩ _ _ ⟨rfl, huv⟩
          exact .ok ⟨rfl, huv⟩
        split
        · refine (readNumber_respaced true hst).bind ?_
          rintro ⟨n, u⟩ ⟨n', v⟩ _ _ ⟨rfl, huv⟩
          exact .ok ⟨rfl, huv⟩
        split
        · cases depth with
          | zero => exact .error
          | succ n =>
              have hn := ih n (Nat.lt_succ_self n)
              refine (readItems_respaced hn (readValue_nested n) hst (Nat.lt_succ_self _)
                (Nat.lt_succ_self _)).bind ?_
              rintro ⟨vs, u⟩ ⟨vs', v⟩ _ _ ⟨rfl, huv⟩
              exact .ok ⟨rfl, huv⟩
        split
        · cases depth with
          | zero => exact .error
          | succ n =>
              have hn := ih n (Nat.lt_succ_self n)
              refine (readMembers_respaced (fun ms key => readMember_respaced hn ms key)
                (fun ms key => readMember_nested (readValue_nested n) ms key) hst
                (Nat.lt_succ_self _) (Nat.lt_succ_self _)).bind ?_
              rintro ⟨ms, u⟩ ⟨ms', v⟩ _ _ ⟨rfl, huv⟩
              exact .ok ⟨rfl, huv⟩
        split
        · refine (readNumber_respaced false (.char hc hst)).bind ?_
          rintro ⟨n, u⟩ ⟨n', v⟩ _ _ ⟨rfl, huv⟩
          exact .ok ⟨rfl, huv⟩
        · exact .error

theorem parse_eq_ok_iff {text : List Char} {v : Json} :
    parse text = .ok v ↔ ∃ r, readValue maxDepth text = .ok (v, r) ∧ skipSpace r = [] := by
  simp only [parse, readWhole]
  cases readValue maxDepth text with
  | error f => simp
  | ok p =>
      obtain ⟨a, r⟩ := p
      cases hr : skipSpace r with
      | cons c t => simp [hr]
      | nil =>
          simp only [hr]
          constructor
          · rintro ⟨rfl⟩
            exact ⟨r, rfl, hr⟩
          · rintro ⟨r', ⟨rfl, rfl⟩, _⟩
            rfl

theorem Respaced.skipSpace_eq_nil {s t : List Char} (h : Respaced s t) :
    Json.skipSpace s = [] ↔ Json.skipSpace t = [] := by
  rcases h.skipSpace with ⟨hs, ht⟩ | ⟨c, s', t', hs, ht, _⟩
  · simp [hs, ht]
  · simp [hs, ht]

theorem parse_respaced {s t : List Char} (h : Respaced s t) (v : Json) :
    parse s = .ok v ↔ parse t = .ok v := by
  have hread := readValue_respaced maxDepth s t h
  rw [parse_eq_ok_iff, parse_eq_ok_iff]
  generalize readValue maxDepth s = x at hread
  generalize readValue maxDepth t = y at hread
  cases hread with
  | error => simp
  | @ok p q hpq =>
      obtain ⟨a, r⟩ := p
      obtain ⟨b, r'⟩ := q
      obtain ⟨rfl, hr⟩ := hpq
      constructor
      · rintro ⟨u, ⟨rfl, rfl⟩, hu⟩
        exact ⟨r', rfl, hr.skipSpace_eq_nil.mp hu⟩
      · rintro ⟨u, ⟨rfl, rfl⟩, hu⟩
        exact ⟨r, rfl, hr.skipSpace_eq_nil.mpr hu⟩

theorem readValue_append_spaces {w : List Char} (h : Spaces w) (depth : Nat) (s : List Char) :
    readValue depth (w ++ s) = readValue depth s := by
  rw [readValue.eq_def, readValue.eq_def depth s]
  simp only [skipSpace_append h]

theorem parse_append_spaces {w : List Char} (h : Spaces w) (s : List Char) (v : Json) :
    parse (w ++ s) = .ok v ↔ parse s = .ok v := by
  rw [parse_eq_ok_iff, parse_eq_ok_iff, readValue_append_spaces h]

end QueueScript.Json
