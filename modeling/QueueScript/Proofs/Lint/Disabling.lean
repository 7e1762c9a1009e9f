import QueueScript.Proofs.Lint.Composition

namespace QueueScript.Lint

def Config.without (config : Config) : Category → Config
  | .body => { config with body := { config.body with enabled := false } }
  | .receive => { config with receive := { config.receive with enabled := false } }
  | .target => { config with target := { config.target with enabled := false } }

theorem mergeSort_filter {α : Type} (key : α → Nat) (p : α → Bool) (xs : List α) :
    (xs.filter p).mergeSort (fun a b => decide (key a ≤ key b)) =
      (xs.mergeSort (fun a b => decide (key a ≤ key b))).filter p := by
  refine eq_of_filter_eq key (pairwise_mergeSort key _) ((pairwise_mergeSort key xs).filter p) ?_
  intro n
  -- The members of one key keep their order in both, since the sort is stable.
  calc ((xs.filter p).mergeSort (fun a b => decide (key a ≤ key b))).filter (fun a => key a = n)
      = (xs.filter p).filter (fun a => key a = n) := filter_mergeSort key _ n
    _ = (xs.filter (fun a => key a = n)).filter p := List.filter_comm ..
    _ = ((xs.mergeSort (fun a b => decide (key a ≤ key b))).filter (fun a => key a = n)).filter p := by
        rw [filter_mergeSort key]
    _ = ((xs.mergeSort (fun a b => decide (key a ≤ key b))).filter p).filter (fun a => key a = n) :=
        List.filter_comm ..

section

variable {c : Command} {i : Issue}

theorem category_of_mem_bodyIssues {config : BodyConfig} (h : i ∈ bodyIssues config c) :
    i.category = .body := by
  rw [bodyIssues, List.mem_append] at h
  rcases h with h | h
  · obtain ⟨w, _, rfl⟩ := List.mem_map.mp h
    rfl
  · split at h
    · rw [List.mem_singleton.mp h]
      rfl
    · cases h

theorem category_of_mem_receiveIssues {config : ReceiveConfig} (h : i ∈ receiveIssues config c) :
    i.category = .receive := by
  obtain ⟨_, ⟨_, _, _, rfl⟩ | ⟨_, _, _, rfl⟩ | ⟨_, _, _, rfl⟩⟩ := mem_receiveIssues.mp h
  · rfl
  · rfl
  · rfl

theorem category_of_mem_targetIssues {config : TargetConfig} (h : i ∈ targetIssues config c) :
    i.category = .target := by
  rw [targetIssues] at h
  split at h
  · cases h
  · rw [List.mem_singleton.mp h]
    rfl

end

theorem filter_pass (b : Bool) (f : Command → List Issue) (cs : List Command) {category : Category}
    (x : Category) (h : ∀ c, ∀ i ∈ f c, i.category = category) :
    (if b then cs.flatMap f else []).filter (fun i => i.category ≠ x) =
      if category = x then [] else if b then cs.flatMap f else [] := by
  have hall : ∀ i ∈ (if b then cs.flatMap f else []), i.category = category := by
    intro i hi
    obtain ⟨c, _, _, hc⟩ := mem_pass.mp hi
    exact h c i hc
  by_cases hx : category = x
  · rw [if_pos hx, List.filter_eq_nil_iff]
    intro i hi
    simp [hall i hi, hx]
  · rw [if_neg hx, List.filter_eq_self]
    intro i hi
    simp [hall i hi, hx]

theorem issues_without (config : Config) (cs : List Command) (x : Category) :
    issues (config.without x) cs = (issues config cs).filter (fun i => i.category ≠ x) := by
  have hbody := filter_pass config.body.enabled (bodyIssues config.body) cs x
    (fun _ _ => category_of_mem_bodyIssues)
  have hreceive := filter_pass config.receive.enabled (receiveIssues config.receive) cs x
    (fun _ _ => category_of_mem_receiveIssues)
  have htarget := filter_pass config.target.enabled (targetIssues config.target) cs x
    (fun _ _ => category_of_mem_targetIssues)
  rw [issues, issues, List.filter_append, List.filter_append, hbody, hreceive, htarget]
  cases x with
  | body => rfl
  | receive => rfl
  | target => rfl

theorem check_without (config : Config) (cs : List Command) (x : Category) :
    let remaining := (check config cs).issues.filter (fun i => i.category ≠ x)
    (check (config.without x) cs).issues = remaining ∧
      (check (config.without x) cs).errorCount = remaining.countP (fun i => i.level = .error) ∧
      (check (config.without x) cs).warningCount =
        remaining.countP (fun i => i.level = .warning) := by
  intro remaining
  have hissues : (check (config.without x) cs).issues = remaining := by
    rw [issues_check, issues_without, mergeSort_filter Issue.line, ← issues_check]
  refine ⟨hissues, ?_, ?_⟩
  · rw [← hissues]
    exact count_check (config.without x) cs .error
  · rw [← hissues]
    exact count_check (config.without x) cs .warning

end QueueScript.Lint
