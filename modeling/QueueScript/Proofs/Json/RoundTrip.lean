import QueueScript.Json.Writer
import QueueScript.Proofs.Json.Respaced
import QueueScript.Proofs.Text.Numeral

namespace QueueScript.Table

variable {α : Type}

theorem insert_of_forall_lt {t : Table String α} {k : String} (a : α) (h : ∀ e ∈ t, e.1 < k) :
    insert k a t = t ++ [(k, a)] := by
  induction t with
  | nil => rfl
  | cons e t ih =>
      obtain ⟨he, ht⟩ := List.forall_mem_cons.mp h
      have hne : k ≠ e.1 := by
        rintro rfl
        exact String.lt_irrefl _ he
      simp only [insert, String.lt_asymm he, hne, if_false, ih ht, List.cons_append]

theorem foldl_insert {t u : Table String α} (h : Sorted (t ++ u)) :
    u.foldl (fun t e => insert e.1 e.2 t) t = t ++ u := by
  induction u generalizing t with
  | nil => simp
  | cons e u ih =>
      have hlt : ∀ x ∈ t, x.1 < e.1 := by
        intro x hx
        simp only [Sorted, keys, List.map_append, List.pairwise_append] at h
        exact h.2.2 x.1 (List.mem_map_of_mem hx) e.1 (by simp)
      rw [List.foldl_cons, insert_of_forall_lt e.2 hlt, ih (by simpa using h)]
      simp

end QueueScript.Table

namespace QueueScript.Json

open Text (isDigit)

def EndsNumber (r : List Char) : Prop :=
  ∀ c, r.head? = some c → isDigit c = false ∧ c ≠ '.' ∧ c ≠ 'e' ∧ c ≠ 'E'

theorem endsNumber_nil : EndsNumber [] := by
  intro c hc
  cases hc

theorem endsNumber_cons {c : Char} (h : isDigit c = false ∧ c ≠ '.' ∧ c ≠ 'e' ∧ c ≠ 'E')
    (r : List Char) : EndsNumber (c :: r) := by
  intro x hx
  obtain rfl : c = x := by simpa using hx
  exact h

theorem Spaces.endsNumber_append {w r : List Char} (h : Spaces w) (hr : EndsNumber r) :
    EndsNumber (w ++ r) := by
  cases w with
  | nil => exact hr
  | cons c w =>
      refine endsNumber_cons ?_ (w ++ r)
      rcases isSpace_cases (h c (List.mem_cons_self ..)) with rfl | rfl | rfl | rfl <;> decide

theorem le_ofDigitChars (ds : List Char) (n : Nat) : n ≤ Nat.ofDigitChars 10 ds n := by
  induction ds generalizing n with
  | nil => simp
  | cons c ds ih =>
      rw [Nat.ofDigitChars_cons]
      exact Nat.le_trans (by omega) (ih _)

theorem absorb_of_lt {limit n : Nat} {ds : List Char} (h : Nat.ofDigitChars 10 ds n < limit) :
    absorb limit n ds = (Nat.ofDigitChars 10 ds n, []) := by
  induction ds generalizing n with
  | nil => simp [absorb]
  | cons c ds ih =>
      rw [Nat.ofDigitChars_cons] at h ⊢
      have hstep : 10 * n + digitValue c < limit := Nat.lt_of_le_of_lt (le_ofDigitChars ds _) h
      rw [absorb, if_pos hstep]
      exact ih h

theorem takeWhile_digits {ds r : List Char} (hd : ∀ c ∈ ds, isDigit c = true) (hr : EndsNumber r) :
    (ds ++ r).takeWhile isDigit = ds ∧ (ds ++ r).dropWhile isDigit = r := by
  rw [List.takeWhile_append_of_pos hd, List.dropWhile_append_of_pos hd]
  cases r with
  | nil => simp
  | cons c r => simp [(hr c rfl).1]

theorem readNumber_decimal (negative : Bool) {n : Nat} (h : n < significandLimit) {r : List Char}
    (hr : EndsNumber r) :
    readNumber negative (Text.decimal n ++ r) = .ok (.ofWhole negative n, r) := by
  obtain ⟨c, s, hd, hc, hzero⟩ := Text.exists_decimal_eq_cons n
  obtain ⟨htake, hdrop⟩ := takeWhile_digits (fun _ hx => Text.isDigit_of_mem_decimal hx) hr
  have habsorb : absorb significandLimit 0 (Text.decimal n) = (n, []) := by
    have hvalue : Nat.ofDigitChars 10 (Text.decimal n) 0 = n := Nat.ofDigitChars_ten_toDigits
    rw [absorb_of_lt (by rwa [hvalue]), hvalue]
  have hlead : ¬ (c = '0' ∧ (s ++ r).head?.any isDigit = true) := by
    rintro ⟨h0, hany⟩
    rw [hzero h0, List.nil_append, Option.any_eq_true] at hany
    obtain ⟨x, hx, hdigit⟩ := hany
    rw [(hr x hx).1] at hdigit
    cases hdigit
  rw [hd, List.cons_append] at htake hdrop ⊢
  rw [readNumber, if_neg (by simp [hc]), if_neg hlead]
  simp only [htake, hdrop, ← hd, habsorb]
  split
  · exact absurd rfl (hr '.' rfl).2.1
  · exact absurd rfl (hr 'e' rfl).2.2.1
  · exact absurd rfl (hr 'E' rfl).2.2.2
  · rfl

theorem hexDigit?_digitChar {n : Nat} (h : n < 16) : hexDigit? (Nat.digitChar n) = some n := by
  have hall : ∀ m < 16, hexDigit? (Nat.digitChar m) = some m := by decide
  exact hall n h

theorem escapeChar_control {c : Char} (h : c.toNat < 0x20) :
    (∃ x, x ≠ 'u' ∧ escapeChar c = ['\\', x] ∧ escaped? x = some c) ∨
      escapeChar c =
        ['\\', 'u', '0', '0', Nat.digitChar (c.toNat / 16), Nat.digitChar (c.toNat % 16)] := by
  have hall : ∀ n < 0x20,
      (['b', 't', 'n', 'f', 'r'].any (fun x => decide (escapeChar (Char.ofNat n) = ['\\', x] ∧
        escaped? x = some (Char.ofNat n)))) = true ∨
        escapeChar (Char.ofNat n) =
          ['\\', 'u', '0', '0', Nat.digitChar (n / 16), Nat.digitChar (n % 16)] := by
    decide
  have hc := hall c.toNat h
  rw [Char.ofNat_toNat, List.any_eq_true] at hc
  refine hc.imp_left ?_
  rintro ⟨x, hx, hletter⟩
  refine ⟨x, ?_, of_decide_eq_true hletter⟩
  rintro rfl
  exact absurd hx (by decide)

theorem spells_escapeChar (c : Char) {q cs : List Char} (h : Spells q cs) :
    Spells (escapeChar c ++ q) (c :: cs) := by
  rcases Nat.lt_or_ge c.toNat 0x20 with hlow | hlow
  · rcases escapeChar_control hlow with ⟨x, hu, hc, hletter⟩ | hc
    · rw [hc]
      exact .letter hu hletter h
    · have hcode : hex4? '0' '0' (Nat.digitChar (c.toNat / 16)) (Nat.digitChar (c.toNat % 16)) =
          some c.toNat := by
        have hzero : hexDigit? '0' = some 0 := by decide
        simp only [hex4?, hzero, hexDigit?_digitChar (show c.toNat / 16 < 16 by omega),
          hexDigit?_digitChar (show c.toNat % 16 < 16 by omega), Option.bind_eq_bind,
          Option.bind_some, Option.pure_def, Option.some.injEq]
        omega
      have hnot : isLowSurrogate c.toNat = false ∧ isHighSurrogate c.toNat = false := by
        simp only [isLowSurrogate, isHighSurrogate, Bool.and_eq_false_iff, decide_eq_false_iff_not]
        omega
      have hspell := Spells.code hcode hnot.1 hnot.2 h
      rw [Char.ofNat_toNat] at hspell
      rw [hc]
      exact hspell
  · by_cases hquote : c = '"'
    · subst hquote
      exact .letter (by decide) (by decide) h
    · by_cases hback : c = '\\'
      · subst hback
        exact .letter (by decide) (by decide) h
      · simp only [escapeChar, hquote, hback, hlow, if_true, if_false]
        exact .plain hquote hback hlow h

theorem spells_flatMap_escapeChar (cs : List Char) :
    Spells (cs.flatMap escapeChar ++ ['"']) cs := by
  induction cs with
  | nil => exact .quote
  | cons c cs ih =>
      rw [List.flatMap_cons, List.append_assoc]
      exact spells_escapeChar c ih

theorem exists_writeString_eq (cs : List Char) : ∃ q, writeString cs = '"' :: q ∧ Spells q cs :=
  ⟨_, rfl, spells_flatMap_escapeChar cs⟩

structure Style.Blank (style : Style) : Prop where
  gap : ∀ depth, Spaces (style.gap depth)
  colon : ∃ w, style.colon = ':' :: w ∧ Spaces w

theorem Style.blank_compact : Style.compact.Blank where
  gap := by simp [Style.compact, Spaces]
  colon := ⟨[], rfl, by simp [Spaces]⟩

theorem Style.blank_indented : Style.indented.Blank where
  gap depth := by simp [Style.indented, Spaces, isSpace]
  colon := ⟨[' '], rfl, by simp [Spaces, isSpace]⟩

def StartsValue (s : List Char) : Prop := ∃ c r, s = c :: r ∧ isSpace c = false ∧ c ≠ ']'

theorem skipSpace_append_cons {w : List Char} (h : Spaces w) {c : Char} (hc : isSpace c = false)
    (s : List Char) : skipSpace (w ++ c :: s) = c :: s := by
  rw [skipSpace_append h, skipSpace, List.dropWhile_cons_of_neg (by simp [hc])]

theorem nextItem_first {w s : List Char} (hw : Spaces w) (hs : StartsValue s) :
    nextItem true (w ++ s) = .ok (.more s) := by
  obtain ⟨c, r, rfl, hc, hend⟩ := hs
  simp [nextItem, skipSpace_append_cons hw hc]

theorem nextItem_comma {w s : List Char} (hw : Spaces w) (hs : StartsValue s) :
    nextItem false (',' :: (w ++ s)) = .ok (.more s) := by
  obtain ⟨c, r, rfl, hc, hend⟩ := hs
  have hcomma : skipSpace (',' :: (w ++ c :: r)) = ',' :: (w ++ c :: r) := rfl
  simp [nextItem, hcomma, skipSpace_append_cons hw hc, hend]

theorem nextItem_end (first : Bool) {w : List Char} (hw : Spaces w) (r : List Char) :
    nextItem first (w ++ ']' :: r) = .ok (.done r) := by
  simp only [nextItem, skipSpace_append_cons hw (show isSpace ']' = false by decide)]

theorem nextKey_first {w : List Char} (hw : Spaces w) (s : List Char) :
    nextKey true (w ++ '"' :: s) = .ok (.more s) := by
  simp only [nextKey, skipSpace_append_cons hw (show isSpace '"' = false by decide)]
  rfl

theorem nextKey_comma {w : List Char} (hw : Spaces w) (s : List Char) :
    nextKey false (',' :: (w ++ '"' :: s)) = .ok (.more s) := by
  have hcomma : skipSpace (',' :: (w ++ '"' :: s)) = ',' :: (w ++ '"' :: s) := rfl
  simp [nextKey, hcomma, skipSpace_append_cons hw (show isSpace '"' = false by decide), openKey]

theorem nextKey_end (first : Bool) {w : List Char} (hw : Spaces w) (r : List Char) :
    nextKey first (w ++ '}' :: r) = .ok (.done r) := by
  simp only [nextKey, skipSpace_append_cons hw (show isSpace '}' = false by decide)]

theorem StartsValue.append {s : List Char} (h : StartsValue s) (t : List Char) :
    StartsValue (s ++ t) := by
  obtain ⟨c, r, rfl, hc⟩ := h
  exact ⟨c, r ++ t, rfl, hc⟩

section

variable {α σ : Type} {s t u r : List Char} {bound : Nat} {first : Bool}

theorem readItems_done {read : Reader α} (h : nextItem first s = .ok (.done r)) :
    readItems read (bound + 1) first s = .ok ([], r) := by
  simp only [readItems, h]
  rfl

theorem readItems_more {read : Reader α} {a : α} {as : List α}
    (hnext : nextItem first s = .ok (.more t)) (hread : read t = .ok (a, u))
    (hrest : readItems read bound false u = .ok (as, r)) :
    readItems read (bound + 1) first s = .ok (a :: as, r) := by
  simp only [readItems, hnext]
  simp only [bind, Except.bind, hread, hrest]
  rfl

theorem readMembers_done {member : σ → String → Reader σ} {acc : σ}
    (h : nextKey first s = .ok (.done r)) :
    readMembers member (bound + 1) first acc s = .ok (acc, r) := by
  simp only [readMembers, h]
  rfl

theorem readMembers_more {member : σ → String → Reader σ} {acc acc' : σ} {key q : List Char}
    (hnext : nextKey first s = .ok (.more (q ++ t))) (hkey : Spells q key)
    (hmember : member acc (String.ofList key) t = .ok (acc', u)) :
    readMembers member (bound + 1) first acc s = readMembers member bound false acc' u := by
  simp only [readMembers, hnext]
  simp only [bind, Except.bind, readString_append hkey, hmember]

end

section

variable {style : Style} {α σ : Type}

theorem endsNumber_writeItems (hs : style.Blank) (depth : Nat) (vs : List Json) (r : List Char) :
    EndsNumber (writeItems style depth vs ++ r) := by
  cases vs with
  | nil =>
      rw [writeItems, List.append_assoc]
      exact (hs.gap depth).endsNumber_append (endsNumber_cons (by decide) r)
  | cons v vs => exact endsNumber_cons (by decide) _

theorem endsNumber_writeMembers (hs : style.Blank) (depth : Nat) (ms : List (String × Json))
    (r : List Char) : EndsNumber (writeMembers style depth ms ++ r) := by
  cases ms with
  | nil =>
      rw [writeMembers, List.append_assoc]
      exact (hs.gap depth).endsNumber_append (endsNumber_cons (by decide) r)
  | cons e ms => exact endsNumber_cons (by decide) _

/-- The reader makes `a` of the text of a value, whatever follows it. -/
def Reads (style : Style) (depth : Nat) (read : Reader α) (v : Json) (a : α) : Prop :=
  ∀ r, EndsNumber r → read (write style depth v ++ r) = .ok (a, r)

theorem readItems_writeItems {read : Reader α} {f : α → Json} (hs : style.Blank) (depth : Nat)
    {as : List α} (hstart : ∀ a ∈ as, StartsValue (write style (depth + 1) (f a)))
    (hread : ∀ a ∈ as, Reads style (depth + 1) read (f a) a) (r : List Char) (bound : Nat)
    (hb : (writeItems style depth (as.map f)).length ≤ bound) :
    readItems read bound false (writeItems style depth (as.map f) ++ r) = .ok (as, r) := by
  induction as generalizing bound with
  | nil =>
      cases bound with
      | zero => simp [writeItems] at hb
      | succ bound =>
          rw [List.map_nil, writeItems, List.append_assoc]
          exact readItems_done (nextItem_end false (hs.gap depth) r)
  | cons a as ih =>
      obtain ⟨hsa, hsas⟩ := List.forall_mem_cons.mp hstart
      obtain ⟨hra, hras⟩ := List.forall_mem_cons.mp hread
      cases bound with
      | zero => simp [writeItems] at hb
      | succ bound =>
          simp only [List.map_cons, writeItems, List.length_append, List.length_cons] at hb
          simp only [List.map_cons, writeItems, List.cons_append, List.append_assoc]
          exact readItems_more (nextItem_comma (hs.gap (depth + 1)) (hsa.append _))
            (hra _ (endsNumber_writeItems hs depth _ r)) (ih hsas hras bound (by omega))

theorem readItems_write {read : Reader α} {f : α → Json} (hs : style.Blank) (depth : Nat)
    {as : List α} (hstart : ∀ a ∈ as, StartsValue (write style (depth + 1) (f a)))
    (hread : ∀ a ∈ as, Reads style (depth + 1) read (f a) a) (r : List Char) :
    ∃ s, write style depth (.array (as.map f)) = '[' :: s ∧
      readItems read ((s ++ r).length + 1) true (s ++ r) = .ok (as, r) := by
  cases as with
  | nil =>
      refine ⟨[']'], by simp [write], ?_⟩
      exact readItems_done (nextItem_end true (w := []) (by simp [Spaces]) r)
  | cons a as =>
      obtain ⟨hsa, hsas⟩ := List.forall_mem_cons.mp hstart
      obtain ⟨hra, hras⟩ := List.forall_mem_cons.mp hread
      refine ⟨style.gap (depth + 1) ++ write style (depth + 1) (f a) ++
        writeItems style depth (as.map f), by simp [write], ?_⟩
      simp only [List.append_assoc]
      refine readItems_more (nextItem_first (hs.gap (depth + 1)) (hsa.append _))
        (hra _ (endsNumber_writeItems hs depth _ r)) (readItems_writeItems hs depth hsas hras r _ ?_)
      simp only [List.length_append]
      omega

inductive Gathers (style : Style) (depth : Nat) (member : σ → String → Reader σ) :
    σ → List (String × Json) → σ → Prop
  | nil {acc : σ} : Gathers style depth member acc [] acc
  | cons {acc acc' x : σ} {k : String} {v : Json} {ms : List (String × Json)} :
      (∀ r, EndsNumber r →
        member acc k (style.colon ++ (write style depth v ++ r)) = .ok (acc', r)) →
      Gathers style depth member acc' ms x → Gathers style depth member acc ((k, v) :: ms) x

theorem Gathers.append {depth : Nat} {member : σ → String → Reader σ} {acc acc' x : σ}
    {ms ns : List (String × Json)} (h : Gathers style depth member acc ms acc')
    (h' : Gathers style depth member acc' ns x) : Gathers style depth member acc (ms ++ ns) x := by
  induction h with
  | nil => exact h'
  | cons hread _ ih => exact .cons hread (ih h')

theorem readMembers_writeMembers {member : σ → String → Reader σ} (hs : style.Blank) {depth : Nat}
    {acc x : σ} {ms : List (String × Json)} (h : Gathers style (depth + 1) member acc ms x)
    (r : List Char) (bound : Nat) (hb : (writeMembers style depth ms).length ≤ bound) :
    readMembers member bound false acc (writeMembers style depth ms ++ r) = .ok (x, r) := by
  induction h generalizing bound with
  | nil =>
      cases bound with
      | zero => simp [writeMembers] at hb
      | succ bound =>
          rw [writeMembers, List.append_assoc]
          exact readMembers_done (nextKey_end false (hs.gap depth) r)
  | @cons acc acc' x k v ms hread _ ih =>
      cases bound with
      | zero => simp [writeMembers] at hb
      | succ bound =>
          simp only [writeMembers, List.length_append, List.length_cons] at hb
          have hread := hread _ (endsNumber_writeMembers hs depth ms r)
          obtain ⟨q, hq, hkey⟩ := exists_writeString_eq k.toList
          simp only [writeMembers, List.cons_append, List.append_assoc, hq]
          rw [readMembers_more (nextKey_comma (hs.gap (depth + 1)) _) hkey
            (by rwa [String.ofList_toList])]
          exact ih bound (by omega)

theorem readMembers_write {member : σ → String → Reader σ} (hs : style.Blank) {depth : Nat}
    {acc x : σ} {ms : List (String × Json)} (h : Gathers style (depth + 1) member acc ms x)
    (r : List Char) :
    ∃ s, write style depth (.object ms) = '{' :: s ∧
      readMembers member ((s ++ r).length + 1) true acc (s ++ r) = .ok (x, r) := by
  cases h with
  | nil =>
      refine ⟨['}'], by simp [write], ?_⟩
      exact readMembers_done (nextKey_end true (w := []) (by simp [Spaces]) r)
  | @cons acc acc' x k v ms hread hrest =>
      have hread := hread _ (endsNumber_writeMembers hs depth ms r)
      obtain ⟨q, hq, hkey⟩ := exists_writeString_eq k.toList
      refine ⟨style.gap (depth + 1) ++ writeString k.toList ++ style.colon ++
        write style (depth + 1) v ++ writeMembers style depth ms, by simp [write], ?_⟩
      simp only [List.append_assoc, List.cons_append, hq]
      rw [readMembers_more (nextKey_first (hs.gap (depth + 1)) _) hkey
        (by rwa [String.ofList_toList])]
      refine readMembers_writeMembers hs hrest r _ ?_
      simp only [List.length_append, List.length_cons]
      omega

end

/-- Values as the reader makes them, floats apart: whole numbers of 64 bits, keys in increasing order,
and at most as many containers inside one another as the first argument says. -/
inductive Exact : Nat → Json → Prop
  | null {n : Nat} : Exact n .null
  | bool {n : Nat} {b : Bool} : Exact n (.bool b)
  | number {n : Nat} {k : Int} : -(negativeLimit : Int) ≤ k → k < (significandLimit : Int) →
      Exact n (.number (.whole k))
  | string {n : Nat} {s : String} : Exact n (.string s)
  | array {n : Nat} {vs : List Json} : (∀ v ∈ vs, Exact n v) → Exact (n + 1) (.array vs)
  | object {n : Nat} {ms : List (String × Json)} : Table.Sorted ms → (∀ e ∈ ms, Exact n e.2) →
      Exact (n + 1) (.object ms)

theorem isDigit_ne {c x : Char} (h : isDigit c = true) (hx : isDigit x = false) : c ≠ x := by
  rintro rfl
  rw [h] at hx
  cases hx

theorem isSpace_of_isDigit {c : Char} (h : isDigit c = true) : isSpace c = false := by
  rw [← Bool.not_eq_true]
  intro hs
  rw [isDigit_of_isSpace hs] at h
  cases h

theorem exists_write_object_eq_cons (style : Style) (depth : Nat) (ms : List (String × Json)) :
    ∃ s, write style depth (.object ms) = '{' :: s := by
  cases ms with
  | nil => exact ⟨_, by rw [write]⟩
  | cons e ms => exact ⟨_, by rw [write]; rfl⟩

theorem Exact.exists_write_eq_cons {n : Nat} {v : Json} (h : Exact n v) (style : Style) (depth : Nat) :
    ∃ c r, write style depth v = c :: r ∧ isSpace c = false ∧ c ≠ ']' ∧ (v ≠ .null → c ≠ 'n') := by
  cases h with
  | null => exact ⟨'n', _, rfl, by decide, by decide, absurd rfl⟩
  | @bool _ b =>
      cases b with
      | false => exact ⟨'f', _, rfl, by decide, by decide, fun _ => by decide⟩
      | true => exact ⟨'t', _, rfl, by decide, by decide, fun _ => by decide⟩
  | @number _ k _ _ =>
      cases k with
      | ofNat m =>
          obtain ⟨c, s, hd, hc, _⟩ := Text.exists_decimal_eq_cons m
          exact ⟨c, s, by rw [write]; exact hd, isSpace_of_isDigit hc, isDigit_ne hc (by decide),
            fun _ => isDigit_ne hc (by decide)⟩
      | negSucc m => exact ⟨'-', _, by rw [write]; rfl, by decide, by decide, fun _ => by decide⟩
  | string => exact ⟨'"', _, by rw [write]; rfl, by decide, by decide, fun _ => by decide⟩
  | @array _ vs _ =>
      cases vs with
      | nil => exact ⟨'[', _, by rw [write], by decide, by decide, fun _ => by decide⟩
      | cons v vs => exact ⟨'[', _, by rw [write]; rfl, by decide, by decide, fun _ => by decide⟩
  | @object _ ms _ _ =>
      obtain ⟨r, hwrite⟩ := exists_write_object_eq_cons style depth ms
      exact ⟨'{', r, hwrite, by decide, by decide, fun _ => by decide⟩

theorem Exact.startsValue {n : Nat} {v : Json} (h : Exact n v) (style : Style) (depth : Nat) :
    StartsValue (write style depth v) := by
  obtain ⟨c, r, hwrite, hc, hend, _⟩ := h.exists_write_eq_cons style depth
  exact ⟨c, r, hwrite, hc, hend⟩

theorem readFrom_digit {depth : Nat} {c : Char} (hc : isDigit c = true) (r : List Char) :
    readFrom depth c r = (do
      let (n, r) ← readNumber false (c :: r)
      return (.number n, r)) := by
  have hne {x : Char} (hx : isDigit x = false) : c ≠ x := isDigit_ne hc hx
  simp only [readFrom, hne (show isDigit 'n' = false by decide), hne (show isDigit 't' = false by decide),
    hne (show isDigit 'f' = false by decide), hne (show isDigit '"' = false by decide),
    hne (show isDigit '-' = false by decide), hne (show isDigit '[' = false by decide),
    hne (show isDigit '{' = false by decide), hc, if_true, if_false]

theorem reads_number (style : Style) (depth n : Nat) {k : Int} (hlow : -(negativeLimit : Int) ≤ k)
    (hhigh : k < (significandLimit : Int)) :
    Reads style depth (readValue n) (.number (.whole k)) (.number (.whole k)) := by
  intro r hr
  cases k with
  | ofNat m =>
      have hm : m < significandLimit := by simpa using hhigh
      obtain ⟨c, s, hd, hc, _⟩ := Text.exists_decimal_eq_cons m
      have hwrite : write style depth (.number (.whole (.ofNat m))) = Text.decimal m := by
        rw [write]
        rfl
      have hnumber := readNumber_decimal false hm hr
      rw [hd, List.cons_append] at hnumber
      rw [hwrite, hd, List.cons_append, readValue_of_skipSpace (s := c :: (s ++ r)) (by
        rw [skipSpace, List.dropWhile_cons_of_neg (by simp [isSpace_of_isDigit hc])]),
        readFrom_digit hc, hnumber]
      rfl
  | negSucc m =>
      have hle : m + 1 ≤ negativeLimit := by omega
      have hm : m + 1 < significandLimit := Nat.lt_of_le_of_lt hle (by decide)
      have hwrite : write style depth (.number (.whole (.negSucc m))) =
          '-' :: Text.decimal (m + 1) := by
        rw [write]
        rfl
      have hvalue : Number.ofWhole true (m + 1) = .whole (.negSucc m) := by
        simp only [Number.ofWhole, if_true]
        rw [if_pos ⟨by omega, hle⟩]
        rfl
      rw [hwrite, List.cons_append, readValue_of_skipSpace (c := '-') rfl]
      simp only [readFrom]
      simp only [Char.reduceEq, if_true, if_false, readNumber_decimal true hm hr, hvalue]
      rfl

theorem colon_append {style : Style} (hs : style.Blank) (s : List Char) :
    ∃ w, colon (style.colon ++ s) = .ok (w ++ s) ∧ Spaces w := by
  obtain ⟨w, hw, hspaces⟩ := hs.colon
  refine ⟨w, ?_, hspaces⟩
  have hskip : skipSpace (':' :: (w ++ s)) = ':' :: (w ++ s) := rfl
  rw [hw, List.cons_append]
  simp only [colon, hskip]

theorem gathers_insert {style : Style} (hs : style.Blank) {depth n : Nat}
    {ms : List (String × Json)} (h : ∀ e ∈ ms, Reads style depth (readValue n) e.2 e.2)
    (t : Table String Json) :
    Gathers style depth (readMember (readValue n)) t ms
      (ms.foldl (fun t e => Table.insert e.1 e.2 t) t) := by
  induction ms generalizing t with
  | nil => exact .nil
  | cons e ms ih =>
      obtain ⟨he, hms⟩ := List.forall_mem_cons.mp h
      refine .cons ?_ (ih hms _)
      intro r hr
      obtain ⟨w, hcolon, hw⟩ := colon_append hs (write style depth e.2 ++ r)
      simp only [readMember, hcolon]
      simp only [bind, Except.bind, readValue_append_spaces hw, he r hr]
      rfl

theorem Exact.reads {style : Style} (hs : style.Blank) {n : Nat} {v : Json} (h : Exact n v)
    (depth : Nat) : Reads style depth (readValue n) v v := by
  induction h generalizing depth with
  | null =>
      intro r _
      rw [write, List.cons_append, readValue_of_skipSpace (c := 'n') rfl]
      rfl
  | @bool _ b =>
      intro r _
      cases b with
      | false =>
          rw [write, List.cons_append, readValue_of_skipSpace (c := 'f') rfl]
          rfl
      | true =>
          rw [write, List.cons_append, readValue_of_skipSpace (c := 't') rfl]
          rfl
  | @number n k hlow hhigh => exact reads_number style depth n hlow hhigh
  | @string _ s =>
      intro r _
      obtain ⟨q, hq, hspells⟩ := exists_writeString_eq s.toList
      rw [write, hq, List.cons_append, readValue_of_skipSpace (c := '"') rfl]
      simp only [readFrom, Char.reduceEq, if_true, if_false, readString_append hspells r]
      simp only [bind, Except.bind, String.ofList_toList]
      rfl
  | @array n vs hvs ih =>
      intro r _
      have hstart : ∀ v ∈ vs, StartsValue (write style (depth + 1) (id v)) :=
        fun v hv => (hvs v hv).startsValue style (depth + 1)
      obtain ⟨s, hs, hitems⟩ := readItems_write hs depth hstart (fun v hv => ih v hv (depth + 1)) r
      rw [List.map_id] at hs
      rw [hs, List.cons_append, readValue_of_skipSpace (c := '[') rfl]
      simp only [readFrom, Char.reduceEq, if_true, if_false, hitems]
      rfl
  | @object n ms hsorted _ ih =>
      intro r _
      have hgathers := gathers_insert hs (fun e he => ih e he (depth + 1)) []
      obtain ⟨s, hs, hmembers⟩ := readMembers_write hs hgathers r
      rw [Table.foldl_insert (t := []) hsorted] at hmembers
      rw [hs, List.cons_append, readValue_of_skipSpace (c := '{') rfl]
      simp only [readFrom, Char.reduceEq, if_true, if_false, hmembers]
      rfl

theorem Exact.parse_write {style : Style} (hs : style.Blank) {v : Json} (h : Exact maxDepth v)
    (depth : Nat) : parse (write style depth v) = .ok v := by
  have hread := h.reads hs depth [] endsNumber_nil
  rw [List.append_nil] at hread
  exact parse_eq_ok_iff.mpr ⟨[], hread, rfl⟩

end QueueScript.Json
