import QueueScript.Lint.Check

namespace QueueScript.Lint

namespace Report

theorem issues_foldl_add (r : Report) (is : List Issue) :
    (is.foldl add r).issues = r.issues ++ is := by
  induction is generalizing r with
  | nil => simp
  | cons i is ih =>
      rw [List.foldl_cons, ih, add]
      cases i.level <;> simp

def count (r : Report) : Level → Nat
  | .error => r.errorCount
  | .warning => r.warningCount

theorem count_foldl_add (r : Report) (is : List Issue) (level : Level) :
    (is.foldl add r).count level = r.count level + is.countP (fun i => i.level = level) := by
  induction is generalizing r with
  | nil => simp
  | cons i is ih =>
      rw [List.foldl_cons, ih, add]
      cases h : i.level <;> cases level <;> simp [h, count, Nat.add_assoc, Nat.add_comm 1]

theorem issues_ofIssues (is : List Issue) : (ofIssues is).issues = is := issues_foldl_add {} is

theorem count_ofIssues (is : List Issue) (level : Level) :
    (ofIssues is).count level = is.countP (fun i => i.level = level) := by
  rw [ofIssues, count_foldl_add]
  cases level <;> exact Nat.zero_add _

end Report

section

variable {config : Config} {cs : List Command} {i : Issue}

theorem mem_issues_check : i ∈ (check config cs).issues ↔ i ∈ issues config cs := by
  rw [check, Report.sortByLine, List.mem_mergeSort, Report.issues_ofIssues]

theorem hasErrors_check :
    (check config cs).hasErrors = true ↔ ∃ i ∈ issues config cs, i.level = .error := by
  have hcount := Report.count_ofIssues (issues config cs) .error
  rw [Report.count] at hcount
  rw [check, Report.sortByLine, Report.hasErrors, decide_eq_true_iff, hcount, List.countP_pos_iff]
  simp

theorem mem_pass {b : Bool} {f : Command → List Issue} :
    i ∈ (if b then cs.flatMap f else []) ↔ ∃ c ∈ cs, b = true ∧ i ∈ f c := by
  cases b <;> simp

theorem mem_issues :
    i ∈ issues config cs ↔ ∃ c ∈ cs,
      (config.body.enabled = true ∧ i ∈ bodyIssues config.body c) ∨
        (config.receive.enabled = true ∧ i ∈ receiveIssues config.receive c) ∨
        config.target.enabled = true ∧ i ∈ targetIssues config.target c := by
  simp only [issues, List.mem_append, mem_pass, and_or_left, exists_or, or_assoc]

end

section

variable {c : Command} {i : Issue}

theorem mem_bodyIssues_error {config : BodyConfig} (h : i.level = .error) :
    i ∈ bodyIssues config c ↔ config.requireBody = true ∧ (c.kind = .send ∧ c.body = none) ∧
      i = .at .error .body c.range.first ("'" ++ c.title ++ "' has no valid JSON body to send") := by
  have hwarning : i ∉ c.warnings.map (fun w => .at .warning .body w.line w.message) := by
    intro hi
    obtain ⟨w, _, rfl⟩ := List.mem_map.mp hi
    cases h
  rw [bodyIssues, List.mem_append, or_iff_right hwarning]
  split
  · rename_i hc
    obtain ⟨hr, hk, hb⟩ := hc
    simp [hr, hk, Option.isNone_iff_eq_none.mp hb]
  · rename_i hc
    simp only [List.not_mem_nil, false_iff]
    rintro ⟨hr, ⟨hk, hb⟩, _⟩
    exact hc ⟨hr, hk, by rw [hb]; rfl⟩

theorem level_of_mem_targetIssues {config : TargetConfig} (h : i ∈ targetIssues config c) :
    i.level = .warning := by
  rw [targetIssues] at h
  split at h
  · simp at h
  · rw [List.mem_singleton.mp h]
    rfl

theorem mem_limit {count : Option UInt32} {p : UInt32 → Prop} [DecidablePred p]
    {f : UInt32 → Issue} :
    i ∈ (match count with
      | some n => if p n then [] else [f n]
      | none => []) ↔ ∃ n, count = some n ∧ ¬ p n ∧ i = f n := by
  cases count with
  | none => simp
  | some n => by_cases h : p n <;> simp [h]

def maxMessagesText (config : ReceiveConfig) (n : UInt32) : String :=
  "max-messages " ++ toString n.toNat ++ " is outside " ++
    toString config.minMaxMessages.toNat ++ "..=" ++ toString config.maxMaxMessages.toNat

theorem mem_receiveIssues {config : ReceiveConfig} :
    i ∈ receiveIssues config c ↔ c.kind = .receive ∧
      ((∃ n, c.maxMessages = some n ∧ ¬ (config.minMaxMessages ≤ n ∧ n ≤ config.maxMaxMessages) ∧
          i = .at .error .receive c.range.first (maxMessagesText config n)) ∨
        (∃ n, c.visibilityTimeout = some n ∧ ¬ n ≤ config.maxVisibilityTimeout ∧
          i = .at .error .receive c.range.first ("visibility-timeout " ++ toString n.toNat ++
            "s exceeds " ++ toString config.maxVisibilityTimeout.toNat ++ "s")) ∨
        ∃ n, c.waitTime = some n ∧ ¬ n ≤ config.maxWaitTime ∧
          i = .at .error .receive c.range.first ("wait-time " ++ toString n.toNat ++
            "s exceeds " ++ toString config.maxWaitTime.toNat ++ "s")) := by
  by_cases hk : c.kind = .receive
  · rw [receiveIssues, if_pos hk, and_iff_right hk, List.mem_append, List.mem_append, or_assoc]
    exact or_congr mem_limit (or_congr mem_limit mem_limit)
  · rw [receiveIssues, if_neg hk]
    simp [hk]

end

end QueueScript.Lint
