import Mathlib.Data.List.TakeWhile
import QueueScript.Proofs.Json.Spelling

namespace QueueScript.Json

open Text (isDigit)

def isToken (c : Char) : Bool :=
  isSpace c || isDigit c ||
    ['[', ']', ':', ',', '+', '-', '.', 'e', 'E', 't', 'r', 'u', 'f', 'a', 'l', 's', 'n'].contains c

def Tokens (q : List Char) : Prop := ∀ c ∈ q, isToken c = true

/-- Token characters and string literals, with braces in pairs. -/
inductive Nested : List Char → Prop
  | nil : Nested []
  | token {c : Char} {q : List Char} : isToken c = true → Nested q → Nested (c :: q)
  | literal {w cs q : List Char} : Spells w cs → Nested q → Nested ('"' :: w ++ q)
  | braces {p q : List Char} : Nested p → Nested q → Nested ('{' :: p ++ '}' :: q)

theorem Nested.append {p q : List Char} (hp : Nested p) (hq : Nested q) : Nested (p ++ q) := by
  induction hp with
  | nil => exact hq
  | token hc _ ih => exact .token hc ih
  | literal hw _ ih =>
      rw [List.append_assoc]
      exact .literal hw ih
  | braces hin _ _ ih =>
      rw [List.append_assoc, List.cons_append]
      exact .braces hin ih

theorem Tokens.nested {q : List Char} (h : Tokens q) : Nested q := by
  induction q with
  | nil => exact .nil
  | cons c q ih =>
      obtain ⟨hc, hq⟩ := List.forall_mem_cons.mp h
      exact .token hc (ih hq)

theorem Tokens.nil : Tokens [] := by
  simp [Tokens]

theorem Tokens.append {p q : List Char} (hp : Tokens p) (hq : Tokens q) : Tokens (p ++ q) := by
  intro c hc
  rcases List.mem_append.mp hc with hc | hc
  · exact hp c hc
  · exact hq c hc

theorem Tokens.cons {c : Char} {q : List Char} (hc : isToken c = true) (hq : Tokens q) :
    Tokens (c :: q) :=
  List.forall_mem_cons.mpr ⟨hc, hq⟩

theorem Tokens.singleton {c : Char} (h : isToken c = true) : Tokens [c] := .cons h .nil

theorem isToken_of_isSpace {c : Char} (h : isSpace c = true) : isToken c = true := by
  simp [isToken, h]

theorem isToken_of_isDigit {c : Char} (h : isDigit c = true) : isToken c = true := by
  simp [isToken, h]

theorem skipSpace_split (s : List Char) : ∃ w, s = w ++ skipSpace s ∧ ∀ c ∈ w, isSpace c = true := by
  refine ⟨s.takeWhile isSpace, List.takeWhile_append_dropWhile.symm, ?_⟩
  intro c hc
  exact List.mem_takeWhile_imp hc

theorem isSpace_of_skipSpace {s t : List Char} {c : Char} (h : skipSpace s = c :: t) :
    isSpace c = false := by
  have hc := List.head?_dropWhile_not isSpace s
  rw [← skipSpace, h] at hc
  simpa using hc

theorem skipSpace_tokens (s : List Char) : ∃ w, s = w ++ skipSpace s ∧ Tokens w := by
  obtain ⟨w, hs, hw⟩ := skipSpace_split s
  exact ⟨w, hs, fun c hc => isToken_of_isSpace (hw c hc)⟩

theorem digits_split (s : List Char) :
    s = s.takeWhile isDigit ++ s.dropWhile isDigit ∧ Tokens (s.takeWhile isDigit) := by
  refine ⟨List.takeWhile_append_dropWhile.symm, ?_⟩
  intro c hc
  exact isToken_of_isDigit (List.mem_takeWhile_imp hc)

theorem readLiteral_eq_ok {α : Type} {a b : α} {xs s r : List Char}
    (h : readLiteral a xs s = .ok (b, r)) : s = xs ++ r ∧ b = a := by
  induction xs generalizing s with
  | nil =>
      obtain ⟨rfl, rfl⟩ := Prod.mk.inj (Except.ok.inj h)
      exact ⟨rfl, rfl⟩
  | cons x xs ih =>
      cases s with
      | nil => simp [readLiteral] at h
      | cons c s =>
          simp only [readLiteral] at h
          split at h
          · rename_i hc
            obtain ⟨rfl, rfl⟩ := ih h
            exact ⟨by rw [hc]; rfl, rfl⟩
          · cases h

theorem readScaled_eq_ok {negative : Bool} {n : Nat} {e : Int} {s r : List Char} {x : Number}
    (h : readScaled negative n e s = .ok (x, r)) : s = r := by
  simp only [readScaled] at h
  split at h
  · exact (Prod.mk.inj (Except.ok.inj h)).2
  · cases h

def exponentSign (s : List Char) : Bool × List Char :=
  match s with
  | '+' :: r => (false, r)
  | '-' :: r => (true, r)
  | _ => (false, s)

def readPower (negative : Bool) (n : Nat) (e : Int) (down : Bool) : Reader Number
  | [] => .error (.before .endInValue [])
  | c :: r =>
      if isDigit c then
        match absorb exponentLimit 0 ((c :: r).takeWhile isDigit) with
        | (x, []) =>
            readScaled negative n (if down then e - x else e + x) ((c :: r).dropWhile isDigit)
        | (_, _ :: excess) =>
            if n ≠ 0 ∧ !down then
              .error (.before .numberRange (excess ++ (c :: r).dropWhile isDigit))
            else .ok (.ofFloat negative 0, (c :: r).dropWhile isDigit)
      else .error (.at .badNumber (c :: r))

theorem readExponent_eq (negative : Bool) (n : Nat) (e : Int) (s : List Char) :
    readExponent negative n e s =
      readPower negative n e (exponentSign s).1 (exponentSign s).2 := by
  simp only [readExponent, readPower, exponentSign]
  rfl

theorem exponentSign_tokens (s : List Char) :
    ∃ w, s = w ++ (exponentSign s).2 ∧ Tokens w := by
  simp only [exponentSign]
  split
  · exact ⟨['+'], rfl, .singleton rfl⟩
  · exact ⟨['-'], rfl, .singleton rfl⟩
  · exact ⟨[], rfl, .nil⟩

theorem readPower_eq_ok {negative down : Bool} {n : Nat} {e : Int} {s r : List Char} {x : Number}
    (h : readPower negative n e down s = .ok (x, r)) : s.dropWhile isDigit = r := by
  cases s with
  | nil => cases h
  | cons c s =>
      simp only [readPower] at h
      split at h
      · split at h
        · exact readScaled_eq_ok h
        · split at h
          · cases h
          · exact (Prod.mk.inj (Except.ok.inj h)).2
      · cases h

theorem readExponent_tokens {negative : Bool} {n : Nat} {e : Int} {s r : List Char} {x : Number}
    (h : readExponent negative n e s = .ok (x, r)) : ∃ q, s = q ++ r ∧ Tokens q := by
  rw [readExponent_eq] at h
  obtain ⟨w, hs, hw⟩ := exponentSign_tokens s
  obtain ⟨hsplit, hdigits⟩ := digits_split (exponentSign s).2
  rw [readPower_eq_ok h] at hsplit
  rw [hsplit, ← List.append_assoc] at hs
  exact ⟨_, hs, hw.append hdigits⟩

theorem readFraction_tokens {negative : Bool} {n : Nat} {e : Int} {s r : List Char} {x : Number}
    (h : readFraction negative n e s = .ok (x, r)) : ∃ q, s = q ++ r ∧ Tokens q := by
  obtain ⟨hsplit, hdigits⟩ := digits_split s
  have hrest : ∃ q, s.dropWhile isDigit = q ++ r ∧ Tokens q := by
    simp only [readFraction] at h
    split at h
    · cases h
    · cases h
    · split at h
      · obtain ⟨q, rfl, hq⟩ := readExponent_tokens h
        exact ⟨'e' :: q, by assumption, .cons rfl hq⟩
      · obtain ⟨q, rfl, hq⟩ := readExponent_tokens h
        exact ⟨'E' :: q, by assumption, .cons rfl hq⟩
      · exact ⟨[], readScaled_eq_ok h, .nil⟩
  obtain ⟨q, hr, hq⟩ := hrest
  rw [hr] at hsplit
  exact ⟨s.takeWhile isDigit ++ q, by rw [List.append_assoc, ← hsplit], hdigits.append hq⟩

theorem readNumber_tokens {negative : Bool} {s r : List Char} {x : Number}
    (h : readNumber negative s = .ok (x, r)) : ∃ q, s = q ++ r ∧ q ≠ [] ∧ Tokens q := by
  cases s with
  | nil => cases h
  | cons c s =>
      obtain ⟨hsplit, hdigits⟩ := digits_split (c :: s)
      simp only [readNumber] at h
      split at h
      · cases h
      · rename_i hc
        split at h
        · cases h
        · have hrest : ∃ q, (c :: s).dropWhile isDigit = q ++ r ∧ Tokens q := by
            split at h
            · rename_i t ht
              obtain ⟨q, rfl, hq⟩ := readFraction_tokens h
              exact ⟨'.' :: q, ht, .cons rfl hq⟩
            · rename_i t ht
              obtain ⟨q, rfl, hq⟩ := readExponent_tokens h
              exact ⟨'e' :: q, ht, .cons rfl hq⟩
            · rename_i t ht
              obtain ⟨q, rfl, hq⟩ := readExponent_tokens h
              exact ⟨'E' :: q, ht, .cons rfl hq⟩
            · refine ⟨[], ?_, .nil⟩
              split at h
              · exact (Prod.mk.inj (Except.ok.inj h)).2
              · exact readScaled_eq_ok h
          obtain ⟨q, hr, hq⟩ := hrest
          rw [hr] at hsplit
          have hdigit : isDigit c = true := by simpa using hc
          refine ⟨(c :: s).takeWhile isDigit ++ q, ?_, ?_, hdigits.append hq⟩
          · rw [List.append_assoc, ← hsplit]
          · simp [hdigit]

theorem nextItem_done {first : Bool} {s r : List Char} (h : nextItem first s = .ok (.done r)) :
    ∃ q, s = q ++ r ∧ q ≠ [] ∧ Tokens q := by
  obtain ⟨w, hs, hw⟩ := skipSpace_tokens s
  simp only [nextItem] at h
  split at h
  · cases h
  · rename_i t ht
    cases h
    rw [ht, List.append_cons] at hs
    exact ⟨_, hs, by simp, hw.append (.singleton rfl)⟩
  · split at h
    · cases h
    · split at h
      · split at h <;> cases h
      · cases h

theorem nextItem_more {first : Bool} {s r : List Char} (h : nextItem first s = .ok (.more r)) :
    ∃ q, s = q ++ r ∧ Tokens q := by
  obtain ⟨w, hs, hw⟩ := skipSpace_tokens s
  simp only [nextItem] at h
  split at h
  · cases h
  · cases h
  · rename_i c t _ ht
    rw [ht] at hs
    split at h
    · cases h
      exact ⟨w, hs, hw⟩
    · split at h
      · rename_i hc
        obtain ⟨v, htv, hv⟩ := skipSpace_tokens t
        split at h
        · cases h
        · cases h
        · cases h
          rw [htv, hc, ← List.cons_append, ← List.append_assoc] at hs
          exact ⟨_, hs, hw.append (.cons rfl hv)⟩
      · cases h

theorem openKey_eq_ok {s : List Char} {n : Next} (h : openKey s = .ok n) :
    ∃ r, s = '"' :: r ∧ n = .more r := by
  simp only [openKey] at h
  split at h
  · cases h
    exact ⟨_, rfl, rfl⟩
  · cases h

theorem nextKey_done {first : Bool} {s r : List Char} (h : nextKey first s = .ok (.done r)) :
    ∃ q, s = q ++ '}' :: r ∧ Tokens q := by
  obtain ⟨w, hs, hw⟩ := skipSpace_tokens s
  simp only [nextKey] at h
  split at h
  · cases h
  · rename_i t ht
    cases h
    rw [ht] at hs
    exact ⟨w, hs, hw⟩
  · split at h
    · obtain ⟨_, _, hn⟩ := openKey_eq_ok h
      cases hn
    · split at h
      · split at h
        · cases h
        · cases h
        · obtain ⟨_, _, hn⟩ := openKey_eq_ok h
          cases hn
      · cases h

theorem nextKey_more {first : Bool} {s r : List Char} (h : nextKey first s = .ok (.more r)) :
    ∃ q, s = q ++ '"' :: r ∧ Tokens q := by
  obtain ⟨w, hs, hw⟩ := skipSpace_tokens s
  simp only [nextKey] at h
  split at h
  · cases h
  · cases h
  · rename_i c t _ ht
    rw [ht] at hs
    split at h
    · obtain ⟨u, hu, hn⟩ := openKey_eq_ok h
      cases hn
      rw [hu] at hs
      exact ⟨w, hs, hw⟩
    · split at h
      · rename_i hc
        obtain ⟨v, htv, hv⟩ := skipSpace_tokens t
        split at h
        · cases h
        · cases h
        · obtain ⟨u, hu, hn⟩ := openKey_eq_ok h
          cases hn
          rw [htv, hc, hu, ← List.cons_append, ← List.append_assoc] at hs
          exact ⟨_, hs, hw.append (.cons rfl hv)⟩
      · cases h

theorem colon_eq_ok {s r : List Char} (h : colon s = .ok r) : ∃ q, s = q ++ r ∧ Tokens q := by
  obtain ⟨w, hs, hw⟩ := skipSpace_tokens s
  simp only [colon] at h
  split at h
  · cases h
  · rename_i t ht
    cases h
    rw [ht, List.append_cons] at hs
    exact ⟨_, hs, hw.append (.singleton rfl)⟩
  · cases h

def TakesNested {α : Type} (read : Reader α) : Prop :=
  ∀ s a r, read s = .ok (a, r) → ∃ q, s = q ++ r ∧ q ≠ [] ∧ Nested q

theorem readItems_nested {α : Type} {read : Reader α} (hread : TakesNested read) {bound : Nat}
    {first : Bool} {s r : List Char} {as : List α}
    (h : readItems read bound first s = .ok (as, r)) : ∃ q, s = q ++ r ∧ q ≠ [] ∧ Nested q := by
  induction bound generalizing first s as with
  | zero => cases h
  | succ bound ih =>
      simp only [readItems] at h
      obtain ⟨next, hnext, h⟩ := bind_eq_ok.mp h
      cases next with
      | done t =>
          cases h
          obtain ⟨q, hs, hne, hq⟩ := nextItem_done hnext
          exact ⟨q, hs, hne, hq.nested⟩
      | more t =>
          obtain ⟨⟨a, t'⟩, ha, h⟩ := bind_eq_ok.mp h
          obtain ⟨⟨as', t''⟩, has, h⟩ := bind_eq_ok.mp h
          cases h
          obtain ⟨q, rfl, hq⟩ := nextItem_more hnext
          obtain ⟨p, rfl, hne, hp⟩ := hread _ _ _ ha
          obtain ⟨o, rfl, _, ho⟩ := ih has
          exact ⟨q ++ (p ++ o), by simp, by simp [hne], hq.nested.append (hp.append ho)⟩

theorem readMembers_nested {σ : Type} {member : σ → String → Reader σ}
    (hmember : ∀ acc key, TakesNested (member acc key)) {bound : Nat} {first : Bool} {acc x : σ}
    {s r : List Char} (h : readMembers member bound first acc s = .ok (x, r)) :
    ∃ q, s = q ++ '}' :: r ∧ Nested q := by
  induction bound generalizing first acc s with
  | zero => cases h
  | succ bound ih =>
      simp only [readMembers] at h
      obtain ⟨next, hnext, h⟩ := bind_eq_ok.mp h
      cases next with
      | done t =>
          cases h
          obtain ⟨q, hs, hq⟩ := nextKey_done hnext
          exact ⟨q, hs, hq.nested⟩
      | more t =>
          obtain ⟨⟨key, t'⟩, hkey, h⟩ := bind_eq_ok.mp h
          obtain ⟨⟨acc', t''⟩, hacc, hrest⟩ := bind_eq_ok.mp h
          obtain ⟨q, rfl, hq⟩ := nextKey_more hnext
          obtain ⟨w, rfl, hw⟩ := spells_of_readString hkey
          obtain ⟨p, rfl, _, hp⟩ := hmember _ _ _ _ _ hacc
          obtain ⟨o, rfl, ho⟩ := ih hrest
          exact ⟨q ++ ('"' :: w ++ (p ++ o)), by simp, hq.nested.append (.literal hw (hp.append ho))⟩

theorem readMember_nested {read : Reader Json} (hread : TakesNested read) (ms : Table String Json)
    (key : String) : TakesNested (readMember read ms key) := by
  intro s a r h
  simp only [readMember] at h
  obtain ⟨t, ht, h⟩ := bind_eq_ok.mp h
  obtain ⟨⟨v, t'⟩, hv, h⟩ := bind_eq_ok.mp h
  cases h
  obtain ⟨q, rfl, hq⟩ := colon_eq_ok ht
  obtain ⟨p, rfl, hne, hp⟩ := hread _ _ _ hv
  exact ⟨q ++ p, by simp, by simp [hne], hq.nested.append hp⟩

theorem readValue_cases {depth : Nat} {s r : List Char} {v : Json}
    (h : readValue depth s = .ok (v, r)) :
    (∃ q, skipSpace s = q ++ r ∧ q ≠ [] ∧ Tokens q ∧ v.typeName ≠ "object") ∨
    (∃ t cs, skipSpace s = '"' :: t ∧ readString t = .ok (cs, r) ∧ v = .string (String.ofList cs)) ∨
    (∃ n t vs, depth = n + 1 ∧ skipSpace s = '[' :: t ∧
      readItems (readValue n) (t.length + 1) true t = .ok (vs, r) ∧ v = .array vs) ∨
    (∃ n t ms, depth = n + 1 ∧ skipSpace s = '{' :: t ∧
      readMembers (readMember (readValue n)) (t.length + 1) true [] t = .ok (ms, r) ∧
        v = .object ms) := by
  rw [readValue.eq_def] at h
  dsimp only at h
  split at h
  · cases h
  · rename_i t ht
    obtain ⟨rfl, rfl⟩ := readLiteral_eq_ok h
    exact .inl ⟨['n', 'u', 'l', 'l'], ht, by simp, by simp [Tokens, isToken], by simp [typeName]⟩
  · rename_i t ht
    obtain ⟨rfl, rfl⟩ := readLiteral_eq_ok h
    exact .inl ⟨['t', 'r', 'u', 'e'], ht, by simp, by simp [Tokens, isToken], by simp [typeName]⟩
  · rename_i t ht
    obtain ⟨rfl, rfl⟩ := readLiteral_eq_ok h
    exact .inl ⟨['f', 'a', 'l', 's', 'e'], ht, by simp, by simp [Tokens, isToken],
      by simp [typeName]⟩
  · rename_i t ht
    obtain ⟨⟨cs, t'⟩, hcs, h⟩ := bind_eq_ok.mp h
    cases h
    exact .inr (.inl ⟨t, cs, ht, hcs, rfl⟩)
  · rename_i t ht
    obtain ⟨⟨n, t'⟩, hn, h⟩ := bind_eq_ok.mp h
    cases h
    obtain ⟨q, rfl, _, hq⟩ := readNumber_tokens hn
    exact .inl ⟨'-' :: q, ht, by simp, .cons rfl hq, by simp [typeName]⟩
  · rename_i t ht
    split at h
    · cases h
    · obtain ⟨⟨vs, t'⟩, hvs, h⟩ := bind_eq_ok.mp h
      cases h
      exact .inr (.inr (.inl ⟨_, t, vs, rfl, ht, hvs, rfl⟩))
  · rename_i t ht
    split at h
    · cases h
    · obtain ⟨⟨ms, t'⟩, hms, h⟩ := bind_eq_ok.mp h
      cases h
      exact .inr (.inr (.inr ⟨_, t, ms, rfl, ht, hms, rfl⟩))
  · rename_i c t _ _ _ _ _ _ _ ht
    split at h
    · obtain ⟨⟨n, t'⟩, hn, h⟩ := bind_eq_ok.mp h
      cases h
      obtain ⟨q, hs, hne, hq⟩ := readNumber_tokens hn
      exact .inl ⟨q, ht.trans hs, hne, hq, by simp [typeName]⟩
    · cases h

theorem readValue_nested (depth : Nat) : TakesNested (readValue depth) := by
  induction depth using Nat.strong_induction_on with
  | _ depth ih =>
      intro s v r h
      obtain ⟨w, hs, hw⟩ := skipSpace_tokens s
      rcases readValue_cases h with ⟨q, hq, hne, ht, _⟩ | ⟨t, cs, hq, hcs, _⟩ |
        ⟨n, t, vs, rfl, hq, hvs, _⟩ | ⟨n, t, ms, rfl, hq, hms, _⟩
      · exact ⟨w ++ q, by rw [List.append_assoc, ← hq, ← hs], by simp [hne], (hw.append ht).nested⟩
      · obtain ⟨p, rfl, hp⟩ := spells_of_readString hcs
        have hl : Nested ('"' :: p ++ []) := .literal hp .nil
        rw [List.append_nil] at hl
        exact ⟨w ++ '"' :: p, by rw [List.append_assoc, List.cons_append, ← hq, ← hs], by simp,
          hw.nested.append hl⟩
      · obtain ⟨p, rfl, _, hp⟩ := readItems_nested (ih n (Nat.lt_succ_self n)) hvs
        exact ⟨w ++ '[' :: p, by rw [List.append_assoc, List.cons_append, ← hq, ← hs], by simp,
          hw.nested.append (.token rfl hp)⟩
      · obtain ⟨p, rfl, hp⟩ := readMembers_nested
          (fun acc key => readMember_nested (ih n (Nat.lt_succ_self n)) acc key) hms
        exact ⟨w ++ ('{' :: p ++ ['}']), by simp [← hq, ← hs], by simp,
          hw.nested.append (.braces hp .nil)⟩

theorem readValue_object {depth : Nat} {s r : List Char} {ms : Table String Json}
    (h : readValue depth s = .ok (.object ms, r)) :
    ∃ w p, s = w ++ ('{' :: p ++ '}' :: r) ∧ (∀ c ∈ w, isSpace c = true) ∧ Nested p := by
  obtain ⟨w, hs, hw⟩ := skipSpace_split s
  rcases readValue_cases h with ⟨_, _, _, _, hv⟩ | ⟨_, _, _, _, hv⟩ | ⟨_, _, _, _, _, _, hv⟩ |
    ⟨n, t, ms, rfl, hq, hms, _⟩
  · simp [typeName] at hv
  · cases hv
  · cases hv
  · obtain ⟨p, rfl, hp⟩ := readMembers_nested
      (fun acc key => readMember_nested (readValue_nested n) acc key) hms
    rw [hq] at hs
    exact ⟨w, p, hs, hw, hp⟩

end QueueScript.Json
