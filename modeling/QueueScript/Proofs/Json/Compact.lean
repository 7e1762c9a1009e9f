import QueueScript.Proofs.Json.Braces
import QueueScript.Proofs.Json.RoundTrip

namespace QueueScript.Json

structure Inline (p : List Char) : Prop where
  nested : Nested p
  feed : '\n' ∉ p
  brace_free : BraceFree p

theorem Inline.append {p q : List Char} (hp : Inline p) (hq : Inline q) : Inline (p ++ q) where
  nested := hp.nested.append hq.nested
  feed := by simp [hp.feed, hq.feed]
  brace_free := by
    obtain ⟨hpo, hpc⟩ := hp.brace_free
    obtain ⟨hqo, hqc⟩ := hq.brace_free
    rw [BraceFree, hp.nested.quoted_append]
    simp [hpo, hpc, hqo, hqc]

theorem quoted_tokens {p : List Char} (h : Tokens p) : quoted p = [] := by
  induction p with
  | nil => rfl
  | cons c p ih =>
      obtain ⟨hc, hp⟩ := List.forall_mem_cons.mp h
      rw [quoted_cons (isToken_ne hc).1, ih hp]

theorem Tokens.inline {p : List Char} (h : Tokens p) (hfeed : '\n' ∉ p) : Inline p where
  nested := h.nested
  feed := hfeed
  brace_free := by simp [BraceFree, quoted_tokens h]

theorem Inline.braces {p : List Char} (h : Inline p) : Inline ('{' :: p ++ ['}']) where
  nested := .braces h.nested .nil
  feed := by simp [h.feed]
  brace_free := by
    have hquoted : quoted ('{' :: p ++ ['}']) = quoted p := by
      rw [List.cons_append, quoted_cons (by decide), h.nested.quoted_append]
      exact List.append_nil _
    rw [BraceFree, hquoted]
    exact h.brace_free

def NoBrace (s : String) : Prop := '{' ∉ s.toList ∧ '}' ∉ s.toList

instance (s : String) : Decidable (NoBrace s) := inferInstanceAs (Decidable (_ ∧ _))

theorem not_mem_escapeChar {b c : Char} (hb : b = '{' ∨ b = '}') (h : b ≠ c) :
    b ∉ escapeChar c := by
  rcases Nat.lt_or_ge c.toNat 0x20 with hlow | hlow
  · have hall : ∀ n < 0x20, '{' ∉ escapeChar (Char.ofNat n) ∧ '}' ∉ escapeChar (Char.ofNat n) := by
      decide
    have hc := hall c.toNat hlow
    rw [Char.ofNat_toNat] at hc
    rcases hb with rfl | rfl
    · exact hc.1
    · exact hc.2
  · have hquote : b ≠ '"' := by rcases hb with rfl | rfl <;> decide
    have hback : b ≠ '\\' := by rcases hb with rfl | rfl <;> decide
    simp only [escapeChar, hlow, if_true]
    split
    · simp [hquote, hback]
    · split
      · simp [hback]
      · simpa using h

theorem not_mem_flatMap_escapeChar {b : Char} {cs : List Char} (hb : b = '{' ∨ b = '}')
    (h : b ∉ cs) : b ∉ cs.flatMap escapeChar := by
  rw [List.mem_flatMap]
  rintro ⟨c, hc, hm⟩
  refine not_mem_escapeChar hb ?_ hm
  rintro rfl
  exact h hc

theorem quoted_writeString (cs : List Char) : quoted (writeString cs) = cs.flatMap escapeChar := by
  obtain ⟨p, hp, hquoted⟩ := (spells_flatMap_escapeChar cs).exists_quotedFrom
  obtain ⟨rfl, _⟩ := List.append_inj' hp rfl
  have hliteral := quoted_literal hquoted []
  have hnil : quoted [] = [] := rfl
  rw [List.append_nil, hnil, List.append_nil] at hliteral
  exact hliteral

theorem inline_writeString {s : String} (h : NoBrace s) : Inline (writeString s.toList) where
  nested := by
    have hliteral : Nested ('"' :: (s.toList.flatMap escapeChar ++ ['"']) ++ []) :=
      .literal (spells_flatMap_escapeChar s.toList) .nil
    rw [List.append_nil] at hliteral
    exact hliteral
  feed := by
    have hfeed := (spells_flatMap_escapeChar s.toList).not_mem
    simpa [writeString] using hfeed
  brace_free := by
    rw [BraceFree, quoted_writeString]
    exact ⟨not_mem_flatMap_escapeChar (.inl rfl) h.1, not_mem_flatMap_escapeChar (.inr rfl) h.2⟩

inductive Unbraced : Json → Prop
  | null : Unbraced .null
  | bool {b : Bool} : Unbraced (.bool b)
  | number {n : Number} : Unbraced (.number n)
  | string {s : String} : NoBrace s → Unbraced (.string s)
  | array {vs : List Json} : (∀ v ∈ vs, Unbraced v) → Unbraced (.array vs)
  | object {ms : List (String × Json)} : (∀ e ∈ ms, NoBrace e.1) → (∀ e ∈ ms, Unbraced e.2) →
      Unbraced (.object ms)

theorem inline_decimal (n : Nat) : Inline (Text.decimal n) := by
  refine Tokens.inline (fun c hc => isToken_of_isDigit (Text.isDigit_of_mem_decimal hc)) ?_
  intro hm
  exact absurd (Text.isDigit_of_mem_decimal hm) (by decide)

theorem inline_token {c : Char} (h : isToken c = true) (hfeed : c ≠ '\n') : Inline [c] :=
  (Tokens.singleton h).inline (by simpa using hfeed.symm)

theorem inline_writeItems {depth : Nat} {vs : List Json}
    (h : ∀ v ∈ vs, Inline (write .compact (depth + 1) v)) :
    Inline (writeItems .compact depth vs) := by
  induction vs with
  | nil =>
      rw [writeItems]
      exact inline_token (by decide) (by decide)
  | cons v vs ih =>
      obtain ⟨hv, hvs⟩ := List.forall_mem_cons.mp h
      have hcomma : Inline [','] := inline_token (by decide) (by decide)
      rw [writeItems]
      exact (hcomma.append hv).append (ih hvs)

theorem inline_member {depth : Nat} {k : String} {v : Json} (hk : NoBrace k)
    (hv : Inline (write .compact depth v)) :
    Inline (writeString k.toList ++ [':'] ++ write .compact depth v) :=
  ((inline_writeString hk).append (inline_token (by decide) (by decide))).append hv

theorem exists_inline_writeMembers {depth : Nat} {ms : List (String × Json)}
    (hk : ∀ e ∈ ms, NoBrace e.1) (hv : ∀ e ∈ ms, Inline (write .compact (depth + 1) e.2)) :
    ∃ p, writeMembers .compact depth ms = p ++ ['}'] ∧ Inline p := by
  induction ms with
  | nil => exact ⟨[], by rw [writeMembers]; rfl, Tokens.nil.inline (by simp)⟩
  | cons e ms ih =>
      obtain ⟨k, v⟩ := e
      obtain ⟨hke, hks⟩ := List.forall_mem_cons.mp hk
      obtain ⟨hve, hvs⟩ := List.forall_mem_cons.mp hv
      obtain ⟨p, hp, hinline⟩ := ih hks hvs
      have hcomma : Inline [','] := inline_token (by decide) (by decide)
      refine ⟨',' :: (writeString k.toList ++ [':'] ++ write .compact (depth + 1) v) ++ p, ?_, ?_⟩
      · rw [writeMembers, hp]
        simp [Style.compact]
      · exact (hcomma.append (inline_member hke hve)).append hinline

theorem Exact.inline {n : Nat} {v : Json} (h : Exact n v) (hu : Unbraced v) (depth : Nat) :
    Inline (write .compact depth v) := by
  induction h generalizing depth with
  | null => exact Tokens.inline (by simp [write, Tokens, isToken]) (by simp [write])
  | @bool _ b =>
      cases b with
      | false => exact Tokens.inline (by simp [write, Tokens, isToken]) (by simp [write])
      | true => exact Tokens.inline (by simp [write, Tokens, isToken]) (by simp [write])
  | @number _ k _ _ =>
      rw [write]
      cases k with
      | ofNat m => exact inline_decimal m
      | negSucc m =>
          have hsign : Inline ['-'] := inline_token (by decide) (by decide)
          exact hsign.append (inline_decimal (m + 1))
  | string =>
      cases hu with
      | string hs =>
          rw [write]
          exact inline_writeString hs
  | @array _ vs _ ih =>
      cases hu with
      | array hvs =>
          cases vs with
          | nil => exact Tokens.inline (by simp [write, Tokens, isToken]) (by simp [write])
          | cons v vs =>
              obtain ⟨hv, htail⟩ := List.forall_mem_cons.mp
                (fun x hx => ih x hx (hvs x hx) (depth + 1))
              have hopen : Inline ['['] := inline_token (by decide) (by decide)
              rw [write]
              exact (hopen.append hv).append (inline_writeItems htail)
  | @object _ ms _ _ ih =>
      cases hu with
      | object hks hvs =>
          cases ms with
          | nil =>
              rw [write]
              exact (Tokens.nil.inline (by simp)).braces
          | cons e ms =>
              obtain ⟨k, v⟩ := e
              obtain ⟨hk, hks⟩ := List.forall_mem_cons.mp hks
              obtain ⟨hv, htail⟩ := List.forall_mem_cons.mp
                (fun x hx => ih x hx (hvs x hx) (depth + 1))
              obtain ⟨p, hp, hinline⟩ := exists_inline_writeMembers hks htail
              have hobject := ((inline_member hk hv).append hinline).braces
              rw [write, hp]
              simpa [Style.compact] using hobject

end QueueScript.Json
