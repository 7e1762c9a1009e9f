import QueueScript.Proofs.Store.Session

namespace QueueScript.Store

section

variable {s s' : Store} {c : Command} {r : Except ExecuteError Response}

theorem Executes.exists_missingBody_iff (h : Executes s c s' r) :
    (∃ e, r = .error (.missingBody e)) ↔ c.kind = .send ∧ c.body = none := by
  cases h with
  | missing hk hb => simp [hk, hb]
  | unknown hb _ => simpa using hb
  | rejected _ hk => simp [hk]
  | sent _ hb => simp [hb]
  | received hk => simp [hk]
  | purged hk => simp [hk]

theorem Executes.exists_queueNotFound_iff (h : Executes s c s' r) :
    (∃ q, r = .error (.service (.queueNotFound q))) ↔
      ¬ (c.kind = .send ∧ c.body = none) ∧ ¬ s.Has c.target := by
  cases h with
  | missing hk hb => simp [hk, hb]
  | unknown hb hq => simpa [Has, hq] using hb
  | rejected _ _ hq => simp [has_of_lookup hq]
  | sent _ _ hq => simp [has_of_lookup hq]
  | received _ hq => simp [has_of_lookup hq]
  | purged _ hq => simp [has_of_lookup hq]

theorem Executes.exists_rejected_iff (h : Executes s c s' r) :
    (∃ text, r = .error (.service (.rejected text))) ↔
      s.Has c.target ∧ c.kind = .receive ∧ ¬ (1 ≤ c.limit ∧ c.limit ≤ receiveLimit) := by
  cases h with
  | missing hk => simp [hk]
  | unknown _ hq => simp [Has, hq]
  | rejected _ hk hq hl => simpa [hk, has_of_lookup hq] using hl
  | sent hk => simp [hk]
  | received _ _ hl => simp [hl]
  | purged hk => simp [hk]

theorem Executes.exists_ok_iff (h : Executes s c s' r) :
    (∃ a, r = .ok a) ↔ ¬ (c.kind = .send ∧ c.body = none) ∧ s.Has c.target ∧
      ¬ (c.kind = .receive ∧ ¬ (1 ≤ c.limit ∧ c.limit ≤ receiveLimit)) := by
  cases h with
  | missing hk hb => simp [hk, hb]
  | unknown _ hq => simp [Has, hq]
  | rejected _ hk _ hl => simp [hk, hl]
  | sent hk hb hq => simp [hk, hb, has_of_lookup hq]
  | received hk hq hl => simp [hk, hl, has_of_lookup hq]
  | purged hk hq => simp [hk, has_of_lookup hq]

theorem Executes.eq_of_error {e : ExecuteError} (h : Executes s c s' (.error e)) : s' = s := by
  cases h with
  | missing | unknown | rejected => rfl

end

theorem execute_classified (s : Store) (c : Command) :
    let missing := c.kind = .send ∧ c.body = none
    let outside := c.kind = .receive ∧ ¬ (1 ≤ c.limit ∧ c.limit ≤ 10)
    ((∃ e, (s.execute c).2 = .error (.missingBody e)) ↔ missing) ∧
      ((∃ q, (s.execute c).2 = .error (.service (.queueNotFound q))) ↔
        ¬ missing ∧ ¬ s.Has c.target) ∧
      ((∃ text, (s.execute c).2 = .error (.service (.rejected text))) ↔
        ¬ missing ∧ s.Has c.target ∧ outside) ∧
      ((∃ a, (s.execute c).2 = .ok a) ↔ ¬ missing ∧ s.Has c.target ∧ ¬ outside) ∧
      ∀ e, (s.execute c).2 = .error e → (s.execute c).1 = s := by
  intro missing outside
  have h := s.executes c
  -- A receive is no send, so a rejected command cannot have been one without a body.
  have hreceive : outside → ¬ missing := by
    rintro ⟨hk, _⟩ ⟨hsend, _⟩
    cases hsend.symm.trans hk
  have hrejected : s.Has c.target ∧ outside ↔ ¬ missing ∧ s.Has c.target ∧ outside :=
    (and_iff_right_of_imp (fun hout => hreceive hout.2)).symm
  refine ⟨h.exists_missingBody_iff, h.exists_queueNotFound_iff,
    h.exists_rejected_iff.trans hrejected, h.exists_ok_iff, ?_⟩
  intro e he
  rw [he] at h
  exact h.eq_of_error

end QueueScript.Store
