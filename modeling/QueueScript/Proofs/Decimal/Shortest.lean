import Mathlib.Algebra.Order.Monoid.Canonical.Defs
import Mathlib.Tactic.Ring
import QueueScript.Decimal.Shortest
/-!
The search for a shortest decimal finds one. A grid of seventeen digits is finer than the interval of
reals that round to a float, so one of the two grid points beside the float lies in the interval.
-/

namespace QueueScript.Decimal

theorem mul_pow_leadingExponent_le {num den : Nat} (hnum : 0 < num) (hden : 0 < den) :
    den * 10 ^ (leadingExponent num den).toNat ≤ num * 10 ^ (-leadingExponent num den).toNat := by
  rw [leadingExponent]
  split
  · rename_i hle
    obtain ⟨n, hn⟩ : ∃ n, (Nat.toDigits 10 (num / den)).length = n + 1 :=
      Nat.exists_eq_succ_of_ne_zero (Nat.ne_of_gt Nat.length_toDigits_pos)
    have hpow : 10 ^ n ≤ num / den := by
      cases n with
      | zero => exact Nat.div_pos hle hden
      | succ n =>
          rw [← Nat.not_lt, ← Nat.length_toDigits_le_iff (by decide) (Nat.succ_pos n), hn]
          omega
    have hup : (((n + 1 : Nat) : Int) - 1).toNat = n := by omega
    have hdown : (-(((n + 1 : Nat) : Int) - 1)).toNat = 0 := by omega
    rw [hn, hup, hdown, Nat.pow_zero, Nat.mul_one, Nat.mul_comm]
    exact (Nat.le_div_iff_mul_le hden).mp hpow
  · generalize hn : (Nat.toDigits 10 ((den - 1) / num)).length = n
    have hlt : (den - 1) / num < 10 ^ n := by
      rw [← Nat.length_toDigits_le_iff (by decide) (hn ▸ Nat.length_toDigits_pos), hn]
    have hmul : den - 1 < 10 ^ n * num := (Nat.div_lt_iff_lt_mul hnum).mp hlt
    have hup : (-(n : Int)).toNat = 0 := by omega
    have hdown : (- -(n : Int)).toNat = n := by omega
    rw [hup, hdown, Nat.pow_zero, Nat.mul_one, Nat.mul_comm]
    omega

theorem pow_mul_le_of_finer {num den : Nat} {e : Int}
    (h : den * 10 ^ e.toNat ≤ num * 10 ^ (-e).toNat) (t : Nat) :
    10 ^ t * (den * 10 ^ (e - t).toNat) ≤ num * 10 ^ (-(e - t)).toNat := by
  have hpowers : 10 ^ t * 10 ^ (e - t).toNat * 10 ^ (-e).toNat =
      10 ^ e.toNat * 10 ^ (-(e - t)).toNat := by
    rw [← Nat.pow_add, ← Nat.pow_add, ← Nat.pow_add]
    congr 1
    omega
  have hpos : 0 < 10 ^ (-e).toNat := Nat.pow_pos (by decide)
  refine Nat.le_of_mul_le_mul_right ?_ hpos
  calc 10 ^ t * (den * 10 ^ (e - t).toNat) * 10 ^ (-e).toNat
      = den * (10 ^ t * 10 ^ (e - t).toNat * 10 ^ (-e).toNat) := by ring
    _ = den * 10 ^ e.toNat * 10 ^ (-(e - t)).toNat := by rw [hpowers]; ring
    _ ≤ num * 10 ^ (-e).toNat * 10 ^ (-(e - t)).toNat := Nat.mul_le_mul_right _ h
    _ = num * 10 ^ (-(e - t)).toNat * 10 ^ (-e).toNat := by ring

namespace Interval

variable {i : Interval} {e : Int} {k : Nat}

theorem contains_of_lt {num den : Nat} (hlow : i.low * den < num * i.den)
    (hhigh : num * i.den < i.high * den) : i.contains num den = true := by
  rw [contains]
  split
  · simp [Nat.le_of_lt hlow, Nat.le_of_lt hhigh]
  · simp [hlow, hhigh]

theorem le_of_gridPoint? (h : i.gridPoint? e = some k) :
    i.value * 10 ^ (-e).toNat / (i.den * 10 ^ e.toNat) ≤ k := by
  simp only [gridPoint?] at h
  split at h
  · split at h
    · exact Nat.le_of_eq (Option.some.inj h)
    · exact Nat.le_of_succ_le (Nat.le_of_eq (Option.some.inj h))
  · exact Nat.le_of_eq (Option.some.inj h)
  · exact Nat.le_of_succ_le (Nat.le_of_eq (Option.some.inj h))
  · cases h

theorem exists_gridPoint?_of_contains {n : Nat}
    (hn : n = i.value * 10 ^ (-e).toNat / (i.den * 10 ^ e.toNat))
    (h : i.contains (n * 10 ^ e.toNat) (10 ^ (-e).toNat) = true ∨
      i.contains ((n + 1) * 10 ^ e.toNat) (10 ^ (-e).toNat) = true) :
    ∃ k, i.gridPoint? e = some k := by
  subst hn
  simp only [gridPoint?]
  split
  · split
    · exact ⟨_, rfl⟩
    · exact ⟨_, rfl⟩
  · exact ⟨_, rfl⟩
  · exact ⟨_, rfl⟩
  · rename_i hfirst hsecond
    rcases h with h | h
    · exact absurd (h.symm.trans hfirst) (by decide)
    · exact absurd (h.symm.trans hsecond) (by decide)

theorem exists_gridPoint? (hlow : i.low ≤ i.value) (hhigh : i.value < i.high) (hden : 0 < i.den)
    (hstep : i.den * 10 ^ e.toNat + i.low * 10 ^ (-e).toNat < i.high * 10 ^ (-e).toNat) :
    ∃ k, i.gridPoint? e = some k := by
  refine exists_gridPoint?_of_contains rfl ?_
  have hpos : 0 < i.den * 10 ^ e.toNat := Nat.mul_pos hden (Nat.pow_pos (by decide))
  have hlow' : i.low * 10 ^ (-e).toNat ≤ i.value * 10 ^ (-e).toNat := Nat.mul_le_mul_right _ hlow
  have hhigh' : i.value * 10 ^ (-e).toNat < i.high * 10 ^ (-e).toNat :=
    Nat.mul_lt_mul_of_pos_right hhigh (Nat.pow_pos (by decide))
  have hbelow := Nat.div_mul_le_self (i.value * 10 ^ (-e).toNat) (i.den * 10 ^ e.toNat)
  have habove := Nat.lt_div_mul_add (a := i.value * 10 ^ (-e).toNat) hpos
  generalize i.value * 10 ^ (-e).toNat / (i.den * 10 ^ e.toNat) = n at hbelow habove
  have hfirst : n * 10 ^ e.toNat * i.den = n * (i.den * 10 ^ e.toNat) := by ring
  have hsecond : (n + 1) * 10 ^ e.toNat * i.den =
      n * (i.den * 10 ^ e.toNat) + i.den * 10 ^ e.toNat := by ring
  -- a grid point at or below the lower end has the next one inside, as the step is too short to leap
  rcases Nat.lt_or_ge (i.low * 10 ^ (-e).toNat) (n * (i.den * 10 ^ e.toNat)) with hin | hout
  · left
    apply contains_of_lt
    · rwa [hfirst]
    · rw [hfirst]
      omega
  · right
    apply contains_of_lt
    · rw [hsecond]
      omega
    · rw [hsecond]
      omega

theorem exists_search {first : Int} {tried left t : Nat} (ht : t < left)
    (h : ∃ k, i.gridPoint? (first - (tried + t : Nat)) = some k) :
    ∃ (k n : Nat), i.gridPoint? (first - n) = some k ∧
      i.search first tried left = .ofGrid k (first - n) := by
  induction left generalizing tried t with
  | zero => omega
  | succ left ih =>
      rw [search]
      cases hk : i.gridPoint? (first - tried) with
      | some k => exact ⟨k, tried, hk, rfl⟩
      | none =>
          cases t with
          | zero =>
              obtain ⟨k, hsome⟩ := h
              rw [Nat.add_zero, hk] at hsome
              cases hsome
          | succ t =>
              rw [← Nat.add_assoc, Nat.add_right_comm] at h
              exact ih (Nat.lt_of_succ_lt_succ ht) h

end Interval

namespace Binary

theorem interval_bounds {b : Binary} (h : 0 < b.m) :
    b.interval.low ≤ b.interval.value ∧ b.interval.value < b.interval.high ∧
      0 < b.interval.value ∧ 0 < b.interval.den := by
  have hscale : 0 < Nat.pow 2 (b.q - 2).toNat := Nat.pow_pos (by decide)
  refine ⟨?_, ?_, ?_, ?_⟩
  · exact Nat.mul_le_mul_right _ (Nat.sub_le _ _)
  · exact Nat.mul_lt_mul_of_pos_right (by omega) hscale
  · exact Nat.mul_pos (by omega) hscale
  · exact Nat.pow_pos (by decide)

theorem interval_width {b : Binary} (h : 0 < b.m) (hlimit : b.m < 2 * leastNormal) {step down : Nat}
    (hdown : 0 < down) (hstep : 10 ^ 16 * step ≤ b.interval.value * down) :
    step + b.interval.low * down < b.interval.high * down := by
  have hscale : 0 < Nat.pow 2 (b.q - 2).toNat := Nat.pow_pos (by decide)
  simp only [interval] at hstep ⊢
  generalize Nat.pow 2 (b.q - 2).toNat = scale at hscale hstep ⊢
  have hunit : 0 < scale * down := Nat.mul_pos hscale hdown
  rw [Nat.mul_assoc] at hstep ⊢
  rw [Nat.mul_assoc]
  generalize scale * down = unit at hunit hstep ⊢
  have hleast : leastNormal = 4503599627370496 := rfl
  rw [Nat.add_mul, Nat.sub_mul]
  split
  · rename_i hpower
    rw [hpower.1, hleast] at hstep ⊢
    omega
  · have hm : 4 * b.m * unit ≤ 4 * (2 * leastNormal) * unit :=
      Nat.mul_le_mul_right _ (Nat.mul_le_mul_left 4 (Nat.le_of_lt hlimit))
    have hone : 4 * unit ≤ 4 * b.m * unit := Nat.mul_le_mul_right _ (by omega)
    rw [hleast] at hm
    omega

theorem exists_shortest_eq {b : Binary} (h : 0 < b.m) (hlimit : b.m < 2 * leastNormal) :
    ∃ k e, 0 < k ∧ b.shortest = .ofGrid k e := by
  obtain ⟨hlow, hhigh, hvalue, hden⟩ := interval_bounds h
  have hlead := mul_pow_leadingExponent_le hvalue hden
  have hgrid : ∃ k, b.interval.gridPoint?
      (leadingExponent b.interval.value b.interval.den - (0 + 16 : Nat)) = some k := by
    apply Interval.exists_gridPoint? hlow hhigh hden
    apply interval_width h hlimit (Nat.pow_pos (by decide))
    exact pow_mul_le_of_finer hlead 16
  have hbound : 16 < 17 := by decide
  obtain ⟨k, n, hk, hsearch⟩ := Interval.exists_search hbound hgrid
  refine ⟨k, _, Nat.lt_of_lt_of_le ?_ (Interval.le_of_gridPoint? hk), hsearch⟩
  have hstep : 0 < b.interval.den * 10 ^ (leadingExponent b.interval.value b.interval.den - n).toNat :=
    Nat.mul_pos hden (Nat.pow_pos (by decide))
  apply Nat.div_pos _ hstep
  refine Nat.le_trans ?_ (pow_mul_le_of_finer hlead n)
  exact Nat.le_mul_of_pos_left _ (Nat.pow_pos (by decide))

theorem m_ofBits_lt (bits : UInt64) : (ofBits bits).m < 2 * leastNormal := by
  have hfraction : bits.toNat % leastNormal < leastNormal := Nat.mod_lt _ (by decide)
  simp only [ofBits]
  split
  · exact Nat.lt_of_lt_of_le hfraction (by decide)
  · exact (Nat.two_mul leastNormal).symm ▸ Nat.add_lt_add_left hfraction leastNormal

end Binary

end QueueScript.Decimal
