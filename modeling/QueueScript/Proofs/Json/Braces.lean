import QueueScript.Proofs.Json.Nesting
import QueueScript.Proofs.Text.Lines
/-!
Braces and lines of nested texts: outside string literals no brace closes before it opened, and a line
never starts inside a literal.
-/

namespace QueueScript.Json

open Text (splitLines)

/-- The characters between quotes, as they are written. The flag says whether a quote is open. -/
def quotedFrom : Bool → List Char → List Char
  | _, [] => []
  | false, c :: s => quotedFrom (c = '"') s
  | true, '\\' :: c :: s => '\\' :: c :: quotedFrom true s
  | true, c :: s => if c = '"' then quotedFrom false s else c :: quotedFrom true s

def quoted (s : List Char) : List Char := quotedFrom false s

theorem quotedFrom_cons {c : Char} (hb : c ≠ '\\') (hq : c ≠ '"') (s : List Char) :
    quotedFrom true (c :: s) = c :: quotedFrom true s := by
  rw [quotedFrom.eq_4 _ _ (fun _ _ h => absurd h hb), if_neg hq]

theorem quotedFrom_hex4 {a b c d : Char} {n : Nat} (h : hex4? a b c d = some n) (s : List Char) :
    quotedFrom true ('\\' :: 'u' :: a :: b :: c :: d :: s) =
      '\\' :: 'u' :: a :: b :: c :: d :: quotedFrom true s := by
  have hne := hex4?_ne h
  simp only [List.forall_mem_cons] at hne
  obtain ⟨⟨haq, hab, _⟩, ⟨hbq, hbb, _⟩, ⟨hcq, hcb, _⟩, ⟨hdq, hdb, _⟩, _⟩ := hne
  rw [quotedFrom, quotedFrom_cons hab haq, quotedFrom_cons hbb hbq, quotedFrom_cons hcb hcq,
    quotedFrom_cons hdb hdq]

theorem Spells.exists_quotedFrom {q cs : List Char} (h : Spells q cs) :
    ∃ p, q = p ++ ['"'] ∧ ∀ s, quotedFrom true (q ++ s) = p ++ quotedFrom false s := by
  induction h with
  | quote =>
      refine ⟨[], rfl, ?_⟩
      intro s
      rw [List.singleton_append, quotedFrom.eq_4 _ _ (fun _ _ h => absurd h (by decide))]
      rfl
  | plain hq hb _ _ ih =>
      obtain ⟨p, rfl, hp⟩ := ih
      refine ⟨_ :: p, rfl, ?_⟩
      intro s
      rw [List.cons_append, quotedFrom_cons hb hq, hp]
      rfl
  | letter _ _ _ ih =>
      obtain ⟨p, rfl, hp⟩ := ih
      refine ⟨_ :: _ :: p, rfl, ?_⟩
      intro s
      simp only [List.cons_append, quotedFrom, hp]
  | code hn _ _ _ ih =>
      obtain ⟨p, rfl, hp⟩ := ih
      refine ⟨_ :: _ :: _ :: _ :: _ :: _ :: p, rfl, ?_⟩
      intro s
      simp only [List.cons_append, quotedFrom_hex4 hn, hp]
  | pair hn _ _ hm _ _ ih =>
      obtain ⟨p, rfl, hp⟩ := ih
      refine ⟨_ :: _ :: _ :: _ :: _ :: _ :: _ :: _ :: _ :: _ :: _ :: _ :: p, rfl, ?_⟩
      intro s
      simp only [List.cons_append, quotedFrom_hex4 hn, quotedFrom_hex4 hm, hp]

theorem quoted_cons {c : Char} (h : c ≠ '"') (s : List Char) : quoted (c :: s) = quoted s := by
  simp [quoted, quotedFrom, h]

theorem isToken_ne {c : Char} (h : isToken c = true) : c ≠ '"' ∧ c ≠ '{' ∧ c ≠ '}' := by
  refine ⟨?_, ?_, ?_⟩
  · rintro rfl
    exact absurd h (by decide)
  · rintro rfl
    exact absurd h (by decide)
  · rintro rfl
    exact absurd h (by decide)

theorem quoted_literal {w p : List Char} (hw : ∀ s, quotedFrom true (w ++ s) = p ++ quotedFrom false s)
    (s : List Char) : quoted ('"' :: w ++ s) = p ++ quoted s := by
  simpa [quoted, quotedFrom] using hw s

theorem Nested.quoted_append {p : List Char} (h : Nested p) (s : List Char) :
    quoted (p ++ s) = quoted p ++ quoted s := by
  induction h generalizing s with
  | nil => rfl
  | token hc _ ih =>
      rw [List.cons_append, quoted_cons (isToken_ne hc).1, quoted_cons (isToken_ne hc).1, ih]
  | literal hw _ ih =>
      obtain ⟨p, _, hp⟩ := hw.exists_quotedFrom
      rw [List.append_assoc, quoted_literal hp, quoted_literal hp, ih, List.append_assoc]
  | braces _ _ ihp ihq =>
      have hopen : '{' ≠ '"' := by decide
      have hclose : '}' ≠ '"' := by decide
      rw [List.append_assoc, List.cons_append, List.cons_append, quoted_cons hopen, ihp,
        List.cons_append, quoted_cons hclose, ihq, quoted_cons hopen, ihp, quoted_cons hclose,
        List.append_assoc]

def BraceFree (s : List Char) : Prop := '{' ∉ quoted s ∧ '}' ∉ quoted s

instance (s : List Char) : Decidable (BraceFree s) := inferInstanceAs (Decidable (_ ∧ _))

theorem count_cons_open (s : List Char) :
    ('{' :: s).count '{' = s.count '{' + 1 ∧ ('{' :: s).count '}' = s.count '}' :=
  ⟨List.count_cons_self, List.count_cons_of_ne (by decide)⟩

theorem count_cons_close (s : List Char) :
    ('}' :: s).count '}' = s.count '}' + 1 ∧ ('}' :: s).count '{' = s.count '{' :=
  ⟨List.count_cons_self, List.count_cons_of_ne (by decide)⟩

/-- Up to any place in a nested text at least as many braces opened as closed, and at its end all are
closed. -/
theorem Nested.count_braces {p : List Char} (h : Nested p) (hf : BraceFree p) :
    p.count '}' = p.count '{' ∧ ∀ u v, p = u ++ v → u.count '}' ≤ u.count '{' := by
  induction h with
  | nil =>
      refine ⟨rfl, ?_⟩
      intro u v huv
      simp [(List.append_eq_nil_iff.mp huv.symm).1]
  | @token c q hc _ ih =>
      obtain ⟨hquote, hopen, hclose⟩ := isToken_ne hc
      rw [BraceFree, quoted_cons hquote] at hf
      obtain ⟨htotal, hprefix⟩ := ih hf
      refine ⟨by simpa [hopen, hclose] using htotal, ?_⟩
      intro u v huv
      rcases List.cons_eq_append_iff.mp huv with ⟨rfl, _⟩ | ⟨u', rfl, hq⟩
      · simp
      · simpa [hopen, hclose] using hprefix u' v hq
  | @literal w cs q hw hq ih =>
      obtain ⟨p, hwp, hp⟩ := hw.exists_quotedFrom
      rw [BraceFree, quoted_literal hp] at hf
      simp only [List.mem_append, not_or] at hf
      obtain ⟨⟨hpo, hqo⟩, hpc, hqc⟩ := hf
      obtain ⟨htotal, hprefix⟩ := ih ⟨hqo, hqc⟩
      have hwo : ('"' :: w).count '{' = 0 := by rw [List.count_eq_zero, hwp]; simp [hpo]
      have hwc : ('"' :: w).count '}' = 0 := by rw [List.count_eq_zero, hwp]; simp [hpc]
      refine ⟨by rw [List.count_append, List.count_append, hwo, hwc, htotal], ?_⟩
      intro u v huv
      rcases List.append_eq_append_iff.mp huv with ⟨x, rfl, hx⟩ | ⟨x, hx, _⟩
      · rw [List.count_append, List.count_append, hwo, hwc]
        simpa using hprefix x v hx
      · rw [hx, List.count_append] at hwc
        omega
  | @braces p q hp hq ihp ihq =>
      rw [BraceFree, List.cons_append, quoted_cons (by decide), hp.quoted_append,
        quoted_cons (by decide)] at hf
      simp only [List.mem_append, not_or] at hf
      obtain ⟨⟨hpo, hqo⟩, hpc, hqc⟩ := hf
      obtain ⟨hptotal, hpprefix⟩ := ihp ⟨hpo, hpc⟩
      obtain ⟨hqtotal, hqprefix⟩ := ihq ⟨hqo, hqc⟩
      constructor
      · simp only [List.cons_append, List.count_append, count_cons_open, count_cons_close]
        omega
      intro u v huv
      rcases List.cons_eq_append_iff.mp huv with ⟨rfl, _⟩ | ⟨u', rfl, hu⟩
      · simp
      · rw [(count_cons_open u').1, (count_cons_open u').2]
        -- The place is inside the braces, or behind the closing one.
        rcases List.append_eq_append_iff.mp hu with ⟨x, rfl, hx⟩ | ⟨x, hx, _⟩
        · rcases List.cons_eq_append_iff.mp hx with ⟨rfl, _⟩ | ⟨x', rfl, hq'⟩
          · rw [List.append_nil]
            omega
          · have hle := hqprefix x' v hq'
            simp only [List.count_append, count_cons_close]
            omega
        · have hle := hpprefix u' x hx
          omega

def StartsPlain (l : List Char) : Prop :=
  ∀ c, (skipSpace l).head? = some c → isToken c = true ∨ c = '{' ∨ c = '}' ∨ c = '"'

theorem startsPlain_cons {c : Char} (h : isToken c = true ∨ c = '{' ∨ c = '}' ∨ c = '"')
    (hs : isSpace c = false) (l : List Char) : StartsPlain (c :: l) := by
  intro x hx
  simp only [skipSpace, List.dropWhile_cons, hs] at hx
  obtain rfl : c = x := by simpa using hx
  exact h

theorem startsPlain_append (l m : List Char) (hl : StartsPlain l) (hm : StartsPlain m) :
    StartsPlain (l ++ m) := by
  intro x hx
  rw [skipSpace, List.dropWhile_append] at hx
  split at hx
  · exact hm x hx
  · rename_i hne
    cases hcut : l.dropWhile isSpace with
    | nil => simp [hcut] at hne
    | cons c r =>
        refine hl x ?_
        rw [hcut] at hx
        rw [skipSpace, hcut]
        exact hx

theorem startsPlain_singleton {c : Char} (h : isToken c = true ∨ c = '{' ∨ c = '}' ∨ c = '"') :
    ∀ l ∈ splitLines [c], StartsPlain l := by
  have hnil : StartsPlain [] := by
    intro x hx
    cases hx
  intro l hl
  by_cases hc : c = '\n'
  · obtain rfl : l = [] := by simpa [splitLines, hc] using hl
    exact hnil
  · obtain rfl : l = [c] := by simpa [splitLines, hc] using hl
    by_cases hs : isSpace c = true
    · intro x hx
      simp [skipSpace, hs] at hx
    · exact startsPlain_cons h (by simpa using hs) []

theorem Nested.startsPlain {p : List Char} (h : Nested p) : ∀ l ∈ splitLines p, StartsPlain l := by
  induction h with
  | nil =>
      intro l hl x hx
      obtain rfl : l = [] := by simpa [splitLines] using hl
      cases hx
  | @token c q hc _ ih =>
      exact Text.forall_splitLines_append startsPlain_append (startsPlain_singleton (.inl hc)) ih
  | @literal w cs q hw _ ih =>
      refine Text.forall_splitLines_append startsPlain_append ?_ ih
      intro l hl
      rw [Text.splitLines_of_not_mem (by simp [hw.not_mem])] at hl
      rw [List.mem_singleton.mp hl]
      exact startsPlain_cons (by simp) (by decide) w
  | @braces p q _ _ ihp ihq =>
      have hopen := startsPlain_singleton (c := '{') (by simp)
      have hclose := startsPlain_singleton (c := '}') (by simp)
      exact Text.forall_splitLines_append startsPlain_append
        (Text.forall_splitLines_append startsPlain_append hopen ihp)
        (Text.forall_splitLines_append startsPlain_append hclose ihq)

end QueueScript.Json
