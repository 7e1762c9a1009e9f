import Mathlib.Data.List.DropRight
import QueueScript.Decimal.Text
import QueueScript.Proofs.Decimal.Shortest
import QueueScript.Proofs.Text.Numeral

namespace QueueScript.Decimal

open Text (isDigit)

def Run (s : List Char) : Prop := s ≠ [] ∧ ∀ c ∈ s, isDigit c = true

inductive Fraction : List Char → Prop
  | none : Fraction []
  | some {s : List Char} : Run s → Fraction ('.' :: s)

inductive Exponent : List Char → Prop
  | none : Exponent []
  | some {sign : Char} {s : List Char} : sign = '+' ∨ sign = '-' → Run s → Exponent ('e' :: sign :: s)

inductive Unsigned : List Char → Prop
  | mk {c : Char} {s f e : List Char} : (∀ x ∈ c :: s, isDigit x = true) → (c = '0' → s = []) →
      Fraction f → Exponent e → Unsigned (c :: s ++ (f ++ e))

theorem run_zero : Run ['0'] := ⟨List.cons_ne_nil _ _, List.forall_mem_singleton.mpr rfl⟩

theorem run_decimal (n : Nat) : Run (Nat.toDigits 10 n) :=
  ⟨Text.decimal_ne_nil n, fun _ hc => Text.isDigit_of_mem_decimal hc⟩

theorem unsigned_decimal (n : Nat) : Unsigned (Nat.toDigits 10 n) := by
  obtain ⟨c, s, hdecimal, _, hzero⟩ := Text.exists_decimal_eq_cons n
  have hdigits := (run_decimal n).2
  have hcons : Nat.toDigits 10 n = c :: s := hdecimal
  rw [hcons] at hdigits ⊢
  have hunsigned := Unsigned.mk hdigits hzero .none .none
  rwa [List.append_nil, List.append_nil] at hunsigned

theorem toNat_sub_lt {c : Char} (h : isDigit c = true) : c.toNat - '0'.toNat < 10 := by
  simp only [isDigit, Bool.and_eq_true, decide_eq_true_eq] at h
  have hle : c.toNat ≤ '9'.toNat := h.2
  have hnine : '9'.toNat = 57 := rfl
  have hzero : '0'.toNat = 48 := rfl
  omega

theorem toNat_sub_ne_zero {c : Char} (h : isDigit c = true) (hc : c ≠ '0') :
    c.toNat - '0'.toNat ≠ 0 := by
  simp only [isDigit, Bool.and_eq_true, decide_eq_true_eq] at h
  have hge : '0'.toNat ≤ c.toNat := h.1
  intro hzero
  apply hc
  rw [← Char.toNat_inj]
  omega

theorem isDigit_digitChar {n : Nat} (h : n < 10) : isDigit (Nat.digitChar n) = true := by
  have hall : ∀ m < 10, isDigit (Nat.digitChar m) = true := by decide
  exact hall n h

theorem digitChar_ne_zero {n : Nat} (h : n < 10) (hn : n ≠ 0) : Nat.digitChar n ≠ '0' := by
  have hall : ∀ m < 10, m ≠ 0 → Nat.digitChar m ≠ '0' := by decide
  exact hall n h hn

namespace Digits

structure Proper (d : Digits) : Prop where
  lt : ∀ n ∈ d.digits, n < 10
  head : ∃ n ns, d.digits = n :: ns ∧ n ≠ 0

theorem proper_ofGrid {k : Nat} (h : 0 < k) (e : Int) : (ofGrid k e).Proper := by
  obtain ⟨c, s, hdecimal, hc, _⟩ := Text.exists_decimal_eq_cons k
  have hne : c ≠ '0' := by
    rintro rfl
    have hzero : k = 0 := Text.eq_zero_of_head?_decimal (by rw [hdecimal]; rfl)
    omega
  have hall : ∀ n ∈ (Nat.toDigits 10 k).map (fun c => c.toNat - '0'.toNat), n < 10 := by
    intro n hn
    obtain ⟨x, hx, rfl⟩ := List.mem_map.mp hn
    exact toNat_sub_lt ((run_decimal k).2 x hx)
  have hcons : (Nat.toDigits 10 k).map (fun c => c.toNat - '0'.toNat) =
      (c.toNat - '0'.toNat) :: s.map (fun c => c.toNat - '0'.toNat) :=
    congrArg (List.map _) hdecimal
  have hkept : (ofGrid k e).digits =
      ((Nat.toDigits 10 k).map (fun c => c.toNat - '0'.toNat)).rdropWhile (fun d => d == 0) := rfl
  have hleft := List.rdropWhile_prefix (fun d => d == 0)
    (l := (Nat.toDigits 10 k).map (fun c => c.toNat - '0'.toNat))
  constructor
  · intro n hn
    rw [hkept] at hn
    exact hall n (hleft.subset hn)
  · rw [hkept]
    rw [hcons] at hleft ⊢
    generalize hd : List.rdropWhile (fun d => d == 0) _ = kept at hleft ⊢
    cases kept with
    | nil =>
        have hzero := List.rdropWhile_eq_nil_iff.mp hd _ (List.mem_cons_self ..)
        exact absurd (beq_iff_eq.mp hzero) (toNat_sub_ne_zero hc hne)
    | cons n ns =>
        obtain ⟨t, ht⟩ := hleft
        obtain ⟨rfl, _⟩ := List.cons.inj ht
        exact ⟨_, ns, rfl, toNat_sub_ne_zero hc hne⟩

variable {d : Digits}

theorem isDigit_of_mem_digitChars {ns : List Nat} (h : ∀ n ∈ ns, n < 10) :
    ∀ c ∈ digitChars ns, isDigit c = true := by
  intro c hc
  obtain ⟨n, hn, rfl⟩ := List.mem_map.mp hc
  exact isDigit_digitChar (h n hn)

theorem isDigit_of_mem_replicate {m : Nat} : ∀ c ∈ List.replicate m '0', isDigit c = true := by
  intro c hc
  rw [(List.mem_replicate.mp hc).2]
  decide

theorem Proper.unsigned_plain (h : d.Proper) : Unsigned d.plain := by
  obtain ⟨n, ns, hdigits, hn⟩ := h.head
  rw [plain]
  split
  · have hrun : Run (List.replicate (-d.first - 1).toNat '0' ++ digitChars d.digits) := by
      refine ⟨by simp [hdigits, digitChars], List.forall_mem_append.mpr ⟨?_, ?_⟩⟩
      · exact isDigit_of_mem_replicate
      · exact isDigit_of_mem_digitChars h.lt
    simpa using Unsigned.mk (c := '0') (s := []) run_zero.2 (fun _ => rfl) (.some hrun) .none
  · have hlt : ∀ x ∈ n :: ns, x < 10 := hdigits ▸ h.lt
    have htake : ∀ x ∈ n :: ns.take d.first.toNat, x < 10 := fun x hx =>
      hlt x (List.mem_of_mem_take (i := d.first.toNat + 1) hx)
    have hwhole : ∀ c ∈ Nat.digitChar n :: (digitChars (ns.take d.first.toNat) ++
        List.replicate (d.first.toNat + 1 - d.digits.length) '0'), isDigit c = true := by
      rw [← List.cons_append]
      exact List.forall_mem_append.mpr ⟨isDigit_of_mem_digitChars htake, isDigit_of_mem_replicate⟩
    have hzero : Nat.digitChar n ≠ '0' := digitChar_ne_zero (hlt n (List.mem_cons_self ..)) hn
    have hafter : Run (if (digitChars (ns.drop d.first.toNat)).isEmpty then ['0']
        else digitChars (ns.drop d.first.toNat)) := by
      split
      · exact run_zero
      · rename_i hne
        refine ⟨by simpa using hne, isDigit_of_mem_digitChars ?_⟩
        intro x hx
        exact hlt x (List.mem_cons_of_mem n (List.mem_of_mem_drop hx))
    have hunsigned := Unsigned.mk hwhole (fun hc => absurd hc hzero) (.some hafter) .none
    simpa [hdigits, digitChars] using hunsigned

theorem Proper.unsigned_scientific (h : d.Proper) : Unsigned d.scientific := by
  obtain ⟨n, ns, hdigits, hn⟩ := h.head
  have hlt : ∀ x ∈ n :: ns, x < 10 := hdigits ▸ h.lt
  have hfirst : ∀ x ∈ [n], x < 10 := by simpa using hlt n (List.mem_cons_self ..)
  have hdigit : ∀ c ∈ [Nat.digitChar n], isDigit c = true := isDigit_of_mem_digitChars hfirst
  have hexponent : Exponent ('e' :: (if d.first < 0 then '-' else '+') ::
      Nat.toDigits 10 d.first.natAbs) := by
    refine .some ?_ (run_decimal _)
    split
    · exact .inr rfl
    · exact .inl rfl
  rw [scientific, hdigits]
  cases ns with
  | nil => exact .mk hdigit (fun _ => rfl) .none hexponent
  | cons m ns =>
      have hrun : Run (digitChars (m :: ns)) :=
        ⟨by simp [digitChars], isDigit_of_mem_digitChars (List.forall_mem_cons.mp hlt).2⟩
      exact .mk hdigit (fun _ => rfl) (.some hrun) hexponent

theorem Proper.unsigned_text (h : d.Proper) : Unsigned d.text := by
  rw [text]
  split
  · exact h.unsigned_plain
  · exact h.unsigned_scientific

end Digits

theorem exists_floatText_eq (x : Float) :
    ∃ p, Unsigned p ∧ (floatText x = p ∨ floatText x = '-' :: p) := by
  have hlimit := Binary.m_ofBits_lt x.toBits
  rw [floatText]
  generalize Binary.ofBits x.toBits = b at hlimit
  rw [Binary.text]
  refine ⟨if b.m = 0 then ['0', '.', '0'] else b.shortest.text, ?_, ?_⟩
  · split
    · exact .mk (c := '0') (s := []) run_zero.2 (fun _ => rfl) (.some run_zero) .none
    · rename_i hm
      obtain ⟨k, e, hk, hshortest⟩ := Binary.exists_shortest_eq (Nat.pos_of_ne_zero hm) hlimit
      rw [hshortest]
      exact (Digits.proper_ofGrid hk e).unsigned_text
  · cases b.negative with
    | false => exact .inl rfl
    | true => exact .inr rfl

end QueueScript.Decimal
