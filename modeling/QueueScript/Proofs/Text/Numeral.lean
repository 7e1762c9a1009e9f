import Mathlib.Data.List.Basic
import QueueScript.Text.Numeral

namespace QueueScript.Text

theorem decimal_ne_nil (n : Nat) : decimal n ≠ [] := Nat.toDigits_ne_nil

theorem isDigit_of_mem_decimal {n : Nat} {c : Char} (h : c ∈ decimal n) : isDigit c = true := by
  have hc := Nat.isDigit_of_mem_toDigits (by decide) (by decide) h
  simp only [Char.isDigit, Bool.and_eq_true, decide_eq_true_eq] at hc
  simp only [isDigit, Bool.and_eq_true, decide_eq_true_eq]
  exact hc

theorem eq_zero_of_head?_decimal {n : Nat} (h : (decimal n).head? = some '0') : n = 0 := by
  induction n using Nat.strongRecOn with
  | ind n ih =>
      rw [decimal, Nat.toDigits_eq_if (by decide)] at h
      split at h
      · simpa using h
      · rename_i hn
        rw [List.head?_append_of_ne_nil _ Nat.toDigits_ne_nil] at h
        have hzero := ih (n / 10) (by omega) h
        omega

theorem exists_decimal_eq_cons (n : Nat) :
    ∃ c s, decimal n = c :: s ∧ isDigit c = true ∧ (c = '0' → s = []) := by
  cases hd : decimal n with
  | nil => exact absurd hd (decimal_ne_nil n)
  | cons c s =>
      refine ⟨c, s, rfl, isDigit_of_mem_decimal (by rw [hd]; exact List.mem_cons_self ..), ?_⟩
      rintro rfl
      have hn : n = 0 := eq_zero_of_head?_decimal (by rw [hd]; rfl)
      rw [hn, decimal, Nat.toDigits_zero] at hd
      exact (List.cons.inj hd).2.symm

theorem decimal_inj {m n : Nat} (h : decimal m = decimal n) : m = n := by
  have hvalue (k : Nat) : Nat.ofDigitChars 10 (decimal k) 0 = k := Nat.ofDigitChars_ten_toDigits
  rw [← hvalue m, h, hvalue n]

theorem decimal_append_inj {m n : Nat} {r s : List Char}
    (hr : ∀ c, r.head? = some c → isDigit c = false)
    (hs : ∀ c, s.head? = some c → isDigit c = false) (h : decimal m ++ r = decimal n ++ s) :
    m = n ∧ r = s := by
  have htake {k : Nat} {t : List Char} (ht : ∀ c, t.head? = some c → isDigit c = false) :
      (decimal k ++ t).takeWhile isDigit = decimal k := by
    rw [List.takeWhile_append_of_pos (fun c hc => isDigit_of_mem_decimal hc)]
    cases t with
    | nil => simp
    | cons c t => simp [ht c rfl]
  have hdigits : decimal m = decimal n := by rw [← htake hr, h, htake hs]
  rw [hdigits] at h
  exact ⟨decimal_inj hdigits, List.append_cancel_left h⟩

theorem count?_of_digits {s : List Char} (hne : s ≠ []) (hall : ∀ c ∈ s, isDigit c = true)
    (hlimit : digitsValue s < countLimit) : count? s = some (UInt32.ofNat (digitsValue s)) := by
  have hdigits : s.all isDigit = true := List.all_eq_true.mpr hall
  simp only [count?]
  split
  · rename_i r
    exact absurd (hall '+' (List.mem_cons_self ..)) (by decide)
  · rw [if_pos ⟨hne, hdigits, hlimit⟩]

theorem count?_decimal (n : UInt32) : count? (decimal n.toNat) = some n := by
  have hvalue : digitsValue (decimal n.toNat) = n.toNat := Nat.ofDigitChars_ten_toDigits
  have hlimit : n.toNat < countLimit := n.toNat_lt
  rw [count?_of_digits (decimal_ne_nil _) (fun _ hc => isDigit_of_mem_decimal hc)
    (by rwa [hvalue]), hvalue, UInt32.ofNat_toNat]

/-- The text is one or more digits, after at most one plus sign, and they stand for the number. -/
def Numeral (s : List Char) (n : Nat) : Prop :=
  ∃ digits, (s = digits ∨ s = '+' :: digits) ∧ digits ≠ [] ∧ (∀ c ∈ digits, isDigit c = true) ∧
    digitsValue digits = n

theorem count?_plus (s : List Char) (h : s.head? ≠ some '+') : count? ('+' :: s) = count? s := by
  cases s with
  | nil => rfl
  | cons c s =>
      have hc : c ≠ '+' := fun e => h (by rw [e]; rfl)
      simp [count?, hc]

theorem count?_eq_some {s : List Char} {n : UInt32} (h : count? s = some n) :
    Numeral s n.toNat := by
  have hread {digits : List Char} (hd : (if digits ≠ [] ∧ digits.all isDigit = true ∧
      digitsValue digits < countLimit then some (UInt32.ofNat (digitsValue digits)) else none) =
        some n) :
      digits ≠ [] ∧ (∀ c ∈ digits, isDigit c = true) ∧ digitsValue digits = n.toNat := by
    split at hd
    · rename_i hcond
      obtain ⟨hne, hall, hlimit⟩ := hcond
      obtain rfl := Option.some.inj hd
      exact ⟨hne, List.all_eq_true.mp hall, (UInt32.toNat_ofNat_of_lt' hlimit).symm⟩
    · cases hd
  simp only [count?] at h
  split at h
  · rename_i r
    exact ⟨r, .inr rfl, hread h⟩
  · exact ⟨s, .inl rfl, hread h⟩

theorem count?_eq_some_iff {s : List Char} {n : UInt32} :
    count? s = some n ↔ Numeral s n.toNat := by
  refine ⟨count?_eq_some, ?_⟩
  rintro ⟨digits, hs, hne, hall, hvalue⟩
  have hlimit : digitsValue digits < countLimit := hvalue ▸ n.toNat_lt
  have hdigits : count? digits = some n := by
    rw [count?_of_digits hne hall hlimit, hvalue, UInt32.ofNat_toNat]
  rcases hs with rfl | rfl
  · exact hdigits
  · rw [count?_plus, hdigits]
    intro hplus
    exact absurd (hall '+' (List.mem_of_head? hplus)) (by decide)

end QueueScript.Text
