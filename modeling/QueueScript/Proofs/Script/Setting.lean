import QueueScript.Proofs.Script.Run
import QueueScript.Proofs.Text.Numeral

namespace QueueScript

namespace Warning

def isMalformed : Warning → Bool
  | .malformedBody _ _ => true
  | .invalidNumber _ _ _ => false

end Warning

namespace Parameter

def Accepted (p : Parameter) : Prop :=
  p.key = .profile ∨ p.key = .region ∨ ∃ n, n ≤ 4294967295 ∧ Text.Numeral p.value.toList n

def refusal (p : Parameter) : Warning := .invalidNumber p.key.name p.value p.line

theorem accepted_iff {p : Parameter} :
    p.Accepted ↔
      p.key = .profile ∨ p.key = .region ∨ (Text.count? p.value.toList).isSome = true := by
  have hcount : (∃ n, n ≤ 4294967295 ∧ Text.Numeral p.value.toList n) ↔
      (Text.count? p.value.toList).isSome = true := by
    rw [Option.isSome_iff_exists]
    constructor
    · rintro ⟨n, hn, hvalue⟩
      have hsize : (UInt32.ofNat n).toNat = n := UInt32.toNat_ofNat_of_lt' (Nat.lt_succ_of_le hn)
      exact ⟨UInt32.ofNat n, Text.count?_eq_some_iff.mpr (hsize.symm ▸ hvalue)⟩
    · rintro ⟨n, hn⟩
      exact ⟨n.toNat, Nat.le_of_lt_succ n.toNat_lt, Text.count?_eq_some_iff.mp hn⟩
  rw [Accepted, hcount]

instance (p : Parameter) : Decidable p.Accepted := decidable_of_iff _ accepted_iff.symm

theorem Accepted.exists_count {p : Parameter} (h : p.Accepted)
    (hkey : p.key ≠ .profile ∧ p.key ≠ .region) :
    ∃ n, Text.count? p.value.toList = some n := by
  rcases accepted_iff.mp h with h | h | h
  · exact absurd h hkey.1
  · exact absurd h hkey.2
  · exact Option.isSome_iff_exists.mp h

end Parameter

namespace Script.Draft

theorem parameters_set (a : Draft) (p : Parameter) :
    (a.set p).parameters = a.parameters ++ if p.Accepted then [p] else [] := by
  obtain ⟨key, value, line⟩ := p
  cases key <;> simp only [set, setCount, Parameter.accepted_iff]
  case profile => simp [record]
  case region => simp [record]
  all_goals cases Text.count? value.toList <;> simp [record, warn]

theorem warnings_set (a : Draft) (p : Parameter) :
    (a.set p).warnings = a.warnings ++ if p.Accepted then [] else [p.refusal] := by
  obtain ⟨key, value, line⟩ := p
  cases key <;> simp only [set, setCount, Parameter.accepted_iff]
  case profile => simp [record]
  case region => simp [record]
  all_goals cases Text.count? value.toList <;> simp [record, warn, Parameter.refusal]

theorem malformed_set (a : Draft) (p : Parameter) :
    (a.set p).warnings.filter Warning.isMalformed = a.warnings.filter Warning.isMalformed := by
  rw [warnings_set, List.filter_append]
  split <;> simp [Parameter.refusal, Warning.isMalformed]

theorem frame_set (a : Draft) (p : Parameter) :
    (a.set p).kind = a.kind ∧ (a.set p).first = a.first ∧ (a.set p).bodyRange = a.bodyRange := by
  obtain ⟨key, value, line⟩ := p
  cases key <;> simp only [set, setCount]
  case profile => exact ⟨rfl, rfl, rfl⟩
  case region => exact ⟨rfl, rfl, rfl⟩
  all_goals cases Text.count? value.toList <;> exact ⟨rfl, rfl, rfl⟩

theorem frame_resolve (a : Draft) (b : OpenBody) :
    (a.resolve b).kind = a.kind ∧ (a.resolve b).first = a.first ∧
      (a.resolve b).bodyRange = some ⟨b.first, b.last⟩ := by
  simp only [resolve]
  cases Json.parse b.text <;> exact ⟨rfl, rfl, rfl⟩

end Script.Draft

end QueueScript
