import QueueScript.Json.Skip
import QueueScript.Proofs.Decimal.Text
import QueueScript.Proofs.Json.RoundTrip

namespace QueueScript.Json

open Decimal (Run Fraction Exponent Unsigned)
open Text (isDigit)

theorem induct {P : Json → Prop} (null : P .null) (bool : ∀ b, P (.bool b))
    (number : ∀ n, P (.number n)) (string : ∀ s, P (.string s))
    (array : ∀ vs, (∀ v ∈ vs, P v) → P (.array vs))
    (object : ∀ ms, (∀ e ∈ ms, P e.2) → P (.object ms)) : ∀ v, P v
  | .null => null
  | .bool b => bool b
  | .number n => number n
  | .string s => string s
  | .array vs => array vs (fun v _ => induct null bool number string array object v)
  | .object ms => object ms (fun e _ => induct null bool number string array object e.2)
termination_by v => sizeOf v
decreasing_by
  · have hlt : sizeOf v < sizeOf vs := List.sizeOf_lt_of_mem ‹_›
    simp only [Json.array.sizeOf_spec]
    omega
  · have hlt : sizeOf e < sizeOf ms := List.sizeOf_lt_of_mem ‹_›
    have hpair : sizeOf e.2 < sizeOf e := by
      cases e
      simp only [Prod.mk.sizeOf_spec]
      omega
    simp only [Json.object.sizeOf_spec]
    omega

variable {style : Style} {depth : Nat} {r : List Char}

theorem skipString_append {q cs : List Char} (h : Spells q cs) (r : List Char) :
    skipString (q ++ r) = .ok r := by
  induction h with
  | quote => simp [skipString]
  | @plain c q cs hq hb hc _ ih =>
      have hlow := Nat.not_lt.mpr hc
      rw [List.cons_append, skipString.eq_7 c (q ++ r) hq (fun h => absurd h hb)
        (fun _ h => absurd h hb) (fun _ _ h => absurd h hb), if_neg hlow, ih]
  | letter hu hx _ ih => simp only [List.cons_append, skipString, hx, ih]
  | code hn _ _ _ ih => simp only [List.cons_append, skipString, hn, ih]
  | pair hn _ _ hm _ _ ih => simp only [List.cons_append, skipString, hn, hm, ih]

def Undigited (s : List Char) : Prop := s.head?.any isDigit = false

theorem dropWhile_digits {s t : List Char} (h : ∀ c ∈ s, isDigit c = true) (ht : Undigited t) :
    (s ++ t).dropWhile isDigit = t := by
  rw [List.dropWhile_append_of_pos h]
  cases t with
  | nil => rfl
  | cons c t => exact List.dropWhile_cons_of_neg (by simpa [Undigited] using ht)

theorem EndsNumber.undigited (h : EndsNumber r) : Undigited r := by
  cases r with
  | nil => rfl
  | cons c r => exact (h c rfl).1

theorem undigited_exponent {e : List Char} (he : Exponent e) (hr : EndsNumber r) :
    Undigited (e ++ r) := by
  cases he with
  | none => exact hr.undigited
  | some => rfl

theorem head?_run {s : List Char} (h : Run s) (t : List Char) :
    (s ++ t).head?.any isDigit = true := by
  obtain ⟨hne, hdigits⟩ := h
  cases s with
  | nil => exact absurd rfl hne
  | cons c s => exact hdigits c (List.mem_cons_self ..)

theorem skipExponent_append {sign : Char} {s : List Char} (hsign : sign = '+' ∨ sign = '-')
    (h : Run s) (hr : EndsNumber r) : skipExponent (sign :: s ++ r) = .ok r := by
  have hdrop : (s ++ r).dropWhile isDigit = r := dropWhile_digits h.2 hr.undigited
  rcases hsign with rfl | rfl
  · simp only [skipExponent, List.cons_append, head?_run h r, if_true, hdrop]
  · simp only [skipExponent, List.cons_append, head?_run h r, if_true, hdrop]

theorem skipTail_append {f e : List Char} (hf : Fraction f) (he : Exponent e) (hr : EndsNumber r) :
    skipTail (f ++ (e ++ r)) = .ok r := by
  cases hf with
  | none =>
      cases he with
      | none =>
          rw [List.nil_append, List.nil_append, skipTail.eq_def]
          split
          · exact absurd rfl (hr '.' rfl).2.1
          · exact absurd rfl (hr 'e' rfl).2.2.1
          · exact absurd rfl (hr 'E' rfl).2.2.2
          · rfl
      | some hsign hrun => exact skipExponent_append hsign hrun hr
  | @some s hs =>
      have hdrop : (s ++ (e ++ r)).dropWhile isDigit = e ++ r :=
        dropWhile_digits hs.2 (undigited_exponent he hr)
      simp only [List.cons_append, skipTail, head?_run hs, if_true, hdrop]
      cases he with
      | none =>
          rw [List.nil_append]
          split
          · exact absurd rfl (hr 'e' rfl).2.2.1
          · exact absurd rfl (hr 'E' rfl).2.2.2
          · rfl
      | some hsign hrun => exact skipExponent_append hsign hrun hr

theorem skipNumber_append {p : List Char} (h : Unsigned p) (hr : EndsNumber r) :
    skipNumber (p ++ r) = .ok r := by
  cases h with
  | @mk c s f e hdigits hzero hf he =>
      obtain ⟨hc, hs⟩ := List.forall_mem_cons.mp hdigits
      have htail : Undigited (f ++ (e ++ r)) := by
        cases hf with
        | none =>
            rw [List.nil_append]
            exact undigited_exponent he hr
        | some => rfl
      simp only [List.cons_append, List.append_assoc, skipNumber, hc, Bool.not_true,
        Bool.false_eq_true, if_false]
      split
      · rename_i h0
        rw [hzero h0, List.nil_append, if_neg (by rw [htail]; decide)]
        exact skipTail_append hf he hr
      · rw [dropWhile_digits hs htail]
        exact skipTail_append hf he hr

theorem exists_writeNumber_eq (n : Number) :
    ∃ p, Unsigned p ∧ (n.write = p ∨ n.write = '-' :: p) := by
  cases n with
  | float x => exact Decimal.exists_floatText_eq x
  | whole k =>
      cases k with
      | ofNat m => exact ⟨_, Decimal.unsigned_decimal m, .inl rfl⟩
      | negSucc m => exact ⟨_, Decimal.unsigned_decimal (m + 1), .inr rfl⟩

def Skips (skip : List Char → Except Fault (List Char)) (p : List Char) : Prop :=
  ∀ w r, Spaces w → EndsNumber r → skip (w ++ (p ++ r)) = .ok r

theorem skipWithin_digit {bound : Nat} {c : Char} (hc : isDigit c = true) {w : List Char}
    (hw : Spaces w) (s : List Char) : skipWithin (bound + 1) (w ++ c :: s) = skipNumber (c :: s) := by
  simp only [skipWithin, skipSpace_append_cons hw (isSpace_of_isDigit hc)]
  split
  case h_9 =>
    rename_i heq
    obtain ⟨rfl, rfl⟩ := List.cons.inj heq
    rw [if_pos hc]
  case h_1 heq => cases heq
  all_goals
    rename_i heq
    obtain ⟨rfl, _⟩ := List.cons.inj heq
    exact absurd hc (by decide)

theorem skips_number (bound : Nat) (n : Number) : Skips (skipWithin (bound + 1)) n.write := by
  intro w r hw hr
  obtain ⟨p, hp, hwrite⟩ := exists_writeNumber_eq n
  have hnumber := skipNumber_append hp hr
  rcases hwrite with hwrite | hwrite
  · rw [hwrite]
    cases hp with
    | mk hdigits _ _ _ =>
        rw [List.cons_append, List.cons_append] at hnumber ⊢
        rw [skipWithin_digit (hdigits _ (List.mem_cons_self ..)) hw]
        exact hnumber
  · rw [hwrite, List.cons_append]
    simp only [skipWithin, skipSpace_append_cons hw (show isSpace '-' = false by decide), hnumber]

theorem exists_write_eq_cons (style : Style) (depth : Nat) (v : Json) :
    ∃ c s, write style depth v = c :: s ∧ isSpace c = false ∧ c ≠ ']' := by
  cases v with
  | null => exact ⟨'n', _, rfl, by decide, by decide⟩
  | bool b =>
      cases b with
      | false => exact ⟨'f', _, rfl, by decide, by decide⟩
      | true => exact ⟨'t', _, rfl, by decide, by decide⟩
  | number n =>
      obtain ⟨p, hp, hwrite⟩ := exists_writeNumber_eq n
      rw [write]
      rcases hwrite with hwrite | hwrite
      · cases hp with
        | @mk c s f e hdigits _ _ _ =>
            have hc : isDigit c = true := hdigits c (List.mem_cons_self ..)
            exact ⟨c, _, hwrite, isSpace_of_isDigit hc, isDigit_ne hc (by decide)⟩
      · exact ⟨'-', p, hwrite, by decide, by decide⟩
  | string s => exact ⟨'"', _, by rw [write]; rfl, by decide, by decide⟩
  | array vs =>
      cases vs with
      | nil => exact ⟨'[', _, by rw [write], by decide, by decide⟩
      | cons v vs => exact ⟨'[', _, by rw [write]; rfl, by decide, by decide⟩
  | object ms =>
      obtain ⟨s, hwrite⟩ := exists_write_object_eq_cons style depth ms
      exact ⟨'{', s, hwrite, by decide, by decide⟩

section

variable {skip : List Char → Except Fault (List Char)}

theorem skipItems_end {w : List Char} (hw : Spaces w) (bound : Nat) (first : Bool) (r : List Char) :
    skipItems skip (bound + 1) first (w ++ ']' :: r) = .ok r := by
  simp only [skipItems, skipSpace_append_cons hw (show isSpace ']' = false by decide)]

theorem skipItems_comma (bound : Nat) (s : List Char) :
    skipItems skip (bound + 1) false (',' :: s) = skip s >>= skipItems skip bound false := rfl

theorem skipItems_writeItems (hs : style.Blank) {vs : List Json}
    (h : ∀ v ∈ vs, Skips skip (write style (depth + 1) v)) (r : List Char) {bound : Nat}
    (hb : (writeItems style depth vs).length ≤ bound) :
    skipItems skip bound false (writeItems style depth vs ++ r) = .ok r := by
  induction vs generalizing bound with
  | nil =>
      cases bound with
      | zero => simp [writeItems] at hb
      | succ bound =>
          rw [writeItems, List.append_assoc]
          exact skipItems_end (hs.gap depth) bound false r
  | cons v vs ih =>
      obtain ⟨hv, hvs⟩ := List.forall_mem_cons.mp h
      cases bound with
      | zero => simp [writeItems] at hb
      | succ bound =>
          simp only [writeItems, List.length_append, List.length_cons] at hb
          have hskip := hv _ _ (hs.gap (depth + 1)) (endsNumber_writeItems hs depth vs r)
          simp only [writeItems, List.cons_append, List.append_assoc, skipItems_comma, hskip]
          exact ih hvs (by omega)

theorem skipItems_write (hs : style.Blank) {vs : List Json}
    (h : ∀ v ∈ vs, Skips skip (write style (depth + 1) v)) (r : List Char) :
    ∃ s, write style depth (.array vs) = '[' :: s ∧
      skipItems skip ((s ++ r).length + 1) true (s ++ r) = .ok r := by
  cases vs with
  | nil => exact ⟨[']'], by simp [write], skipItems_end (w := []) .nil _ true r⟩
  | cons v vs =>
      obtain ⟨hv, hvs⟩ := List.forall_mem_cons.mp h
      refine ⟨style.gap (depth + 1) ++ write style (depth + 1) v ++ writeItems style depth vs,
        by simp [write], ?_⟩
      have hskip := hv [] _ .nil (endsNumber_writeItems hs depth vs r)
      obtain ⟨c, s, hwrite, hc, hend⟩ := exists_write_eq_cons style (depth + 1) v
      simp only [hwrite, List.nil_append, List.cons_append] at hskip
      simp only [hwrite, List.append_assoc, List.cons_append]
      simp only [skipItems, skipSpace_append_cons (hs.gap (depth + 1)) hc]
      simp only [bind, Except.bind, if_true, hskip]
      refine skipItems_writeItems hs hvs r ?_
      simp only [List.length_append, List.length_cons]
      omega

theorem skipMember_append (hs : style.Blank) {w : List Char} (hw : Spaces w) (k : String) {v : Json}
    (h : Skips skip (write style depth v)) (hr : EndsNumber r) :
    skipKey (w ++ (writeString k.toList ++ (style.colon ++ (write style depth v ++ r)))) >>= skip =
      .ok r := by
  obtain ⟨q, hq, hspells⟩ := exists_writeString_eq k.toList
  obtain ⟨u, hcolon, hu⟩ := colon_append hs (write style depth v ++ r)
  rw [hq, List.cons_append]
  simp only [skipKey, skipSpace_append_cons hw (show isSpace '"' = false by decide),
    skipString_append hspells]
  simp only [bind, Except.bind, hcolon]
  exact h u r hu hr

theorem skipMembers_end {w : List Char} (hw : Spaces w) (bound : Nat) (first : Bool) (r : List Char) :
    skipMembers skip (bound + 1) first (w ++ '}' :: r) = .ok r := by
  simp only [skipMembers, skipSpace_append_cons hw (show isSpace '}' = false by decide)]

theorem skipMembers_comma {bound : Nat} {s t : List Char} (h : skipKey s >>= skip = .ok t) :
    skipMembers skip (bound + 1) false (',' :: s) = skipMembers skip bound false t := by
  obtain ⟨u, hkey, hskip⟩ := bind_eq_ok.mp h
  change (skipKey s >>= fun u => skip u >>= skipMembers skip bound false) = _
  simp only [bind, Except.bind, hkey, hskip]

theorem skipMembers_first {bound : Nat} {w s t : List Char} (hw : Spaces w)
    (h : skipKey ('"' :: s) >>= skip = .ok t) :
    skipMembers skip (bound + 1) true (w ++ '"' :: s) = skipMembers skip bound false t := by
  obtain ⟨u, hkey, hskip⟩ := bind_eq_ok.mp h
  rw [skipMembers, skipSpace_append_cons hw (by decide)]
  change (skipKey ('"' :: s) >>= fun u => skip u >>= skipMembers skip bound false) = _
  simp only [bind, Except.bind, hkey, hskip]

theorem skipMembers_writeMembers (hs : style.Blank) {ms : List (String × Json)}
    (h : ∀ e ∈ ms, Skips skip (write style (depth + 1) e.2)) (r : List Char) {bound : Nat}
    (hb : (writeMembers style depth ms).length ≤ bound) :
    skipMembers skip bound false (writeMembers style depth ms ++ r) = .ok r := by
  induction ms generalizing bound with
  | nil =>
      cases bound with
      | zero => simp [writeMembers] at hb
      | succ bound =>
          rw [writeMembers, List.append_assoc]
          exact skipMembers_end (hs.gap depth) bound false r
  | cons e ms ih =>
      obtain ⟨k, v⟩ := e
      obtain ⟨hv, hms⟩ := List.forall_mem_cons.mp h
      cases bound with
      | zero => simp [writeMembers] at hb
      | succ bound =>
          simp only [writeMembers, List.length_append, List.length_cons] at hb
          have hmember := skipMember_append hs (hs.gap (depth + 1)) k hv
            (endsNumber_writeMembers hs depth ms r)
          simp only [writeMembers, List.cons_append, List.append_assoc]
          rw [skipMembers_comma hmember]
          exact ih hms (by omega)

theorem skipMembers_write (hs : style.Blank) {ms : List (String × Json)}
    (h : ∀ e ∈ ms, Skips skip (write style (depth + 1) e.2)) (r : List Char) :
    ∃ s, write style depth (.object ms) = '{' :: s ∧
      skipMembers skip ((s ++ r).length + 1) true (s ++ r) = .ok r := by
  cases ms with
  | nil => exact ⟨['}'], by simp [write], skipMembers_end (w := []) .nil _ true r⟩
  | cons e ms =>
      obtain ⟨k, v⟩ := e
      obtain ⟨hv, hms⟩ := List.forall_mem_cons.mp h
      refine ⟨style.gap (depth + 1) ++ writeString k.toList ++ style.colon ++
        write style (depth + 1) v ++ writeMembers style depth ms, by simp [write], ?_⟩
      have hmember := skipMember_append hs .nil k hv (endsNumber_writeMembers hs depth ms r)
      obtain ⟨q, hq, _⟩ := exists_writeString_eq k.toList
      simp only [hq, List.nil_append, List.cons_append] at hmember
      simp only [hq, List.append_assoc, List.cons_append]
      rw [skipMembers_first (hs.gap (depth + 1)) hmember]
      refine skipMembers_writeMembers hs hms r ?_
      simp only [List.length_append, List.length_cons]
      omega

end

theorem exists_bound {v : Json} {bound : Nat} (h : (write style depth v).length ≤ bound) :
    ∃ n, bound = n + 1 := by
  obtain ⟨c, s, hwrite, _⟩ := exists_write_eq_cons style depth v
  rw [hwrite, List.length_cons] at h
  exact Nat.exists_eq_succ_of_ne_zero (by omega)

theorem length_writeItems_lt {vs : List Json} {v : Json} (h : v ∈ vs) :
    (write style (depth + 1) v).length < (writeItems style depth vs).length := by
  induction vs with
  | nil => cases h
  | cons x vs ih =>
      simp only [writeItems, List.length_append, List.length_cons]
      rcases List.mem_cons.mp h with rfl | h
      · omega
      · have hlt := ih h
        omega

theorem length_writeMembers_lt {ms : List (String × Json)} {e : String × Json} (h : e ∈ ms) :
    (write style (depth + 1) e.2).length < (writeMembers style depth ms).length := by
  induction ms with
  | nil => cases h
  | cons x ms ih =>
      simp only [writeMembers, List.length_append, List.length_cons]
      rcases List.mem_cons.mp h with rfl | h
      · omega
      · have hlt := ih h
        omega

theorem length_item_lt {vs : List Json} {v : Json} (h : v ∈ vs) :
    (write style (depth + 1) v).length < (write style depth (.array vs)).length := by
  cases vs with
  | nil => cases h
  | cons x vs =>
      have hlength : (write style depth (.array (x :: vs))).length =
          (writeItems style depth (x :: vs)).length := by simp [write, writeItems]
      rw [hlength]
      exact length_writeItems_lt h

theorem length_member_lt {ms : List (String × Json)} {e : String × Json} (h : e ∈ ms) :
    (write style (depth + 1) e.2).length < (write style depth (.object ms)).length := by
  cases ms with
  | nil => cases h
  | cons x ms =>
      have hlength : (write style depth (.object (x :: ms))).length =
          (writeMembers style depth (x :: ms)).length := by simp [write, writeMembers]
      rw [hlength]
      exact length_writeMembers_lt h

/-- Each container takes a character, so the text of a value is longer than the value is deep. -/
theorem skips_write (hs : style.Blank) (v : Json) (depth : Nat) {bound : Nat}
    (hb : (write style depth v).length ≤ bound) : Skips (skipWithin bound) (write style depth v) := by
  induction v using induct generalizing depth bound with
  | null =>
      obtain ⟨bound, rfl⟩ := exists_bound hb
      intro w r hw _
      rw [write, List.cons_append, skipWithin, skipSpace_append_cons hw (by decide)]
      rfl
  | bool b =>
      obtain ⟨bound, rfl⟩ := exists_bound hb
      intro w r hw _
      cases b with
      | false =>
          rw [write, List.cons_append, skipWithin, skipSpace_append_cons hw (by decide)]
          rfl
      | true =>
          rw [write, List.cons_append, skipWithin, skipSpace_append_cons hw (by decide)]
          rfl
  | number n =>
      obtain ⟨bound, rfl⟩ := exists_bound hb
      rw [write]
      exact skips_number bound n
  | string s =>
      obtain ⟨bound, rfl⟩ := exists_bound hb
      intro w r hw _
      obtain ⟨q, hq, hspells⟩ := exists_writeString_eq s.toList
      rw [write, hq, List.cons_append, skipWithin, skipSpace_append_cons hw (by decide)]
      exact skipString_append hspells r
  | array vs ih =>
      obtain ⟨bound, rfl⟩ := exists_bound hb
      intro w r hw _
      have hvs : ∀ v ∈ vs, Skips (skipWithin bound) (write style (depth + 1) v) := by
        intro v hv
        exact ih v hv (depth + 1) (Nat.le_of_lt_succ (Nat.lt_of_lt_of_le (length_item_lt hv) hb))
      obtain ⟨s, hwrite, hskip⟩ := skipItems_write hs hvs r
      rw [hwrite, List.cons_append, skipWithin, skipSpace_append_cons hw (by decide)]
      exact hskip
  | object ms ih =>
      obtain ⟨bound, rfl⟩ := exists_bound hb
      intro w r hw _
      have hms : ∀ e ∈ ms, Skips (skipWithin bound) (write style (depth + 1) e.2) := by
        intro e he
        exact ih e he (depth + 1) (Nat.le_of_lt_succ (Nat.lt_of_lt_of_le (length_member_lt he) hb))
      obtain ⟨s, hwrite, hskip⟩ := skipMembers_write hs hms r
      rw [hwrite, List.cons_append, skipWithin, skipSpace_append_cons hw (by decide)]
      exact hskip

theorem skipValue_write (hs : style.Blank) (v : Json) (depth : Nat) :
    Skips skipValue (write style depth v) := by
  intro w r hw hr
  refine skips_write hs v depth ?_ w r hw hr
  simp only [List.length_append]
  omega

end QueueScript.Json
