import QueueScript.Proofs.Lint.Report
import QueueScript.Proofs.Store.Failure

namespace QueueScript

def Command.Acceptable (c : Command) : Prop :=
  ¬ (c.kind = .send ∧ c.body = none) ∧
    (c.kind = .receive → 1 ≤ c.limit ∧ c.limit ≤ Store.receiveLimit)

theorem Command.limit_of_some {c : Command} {n : UInt32} (h : c.maxMessages = some n) :
    c.limit = n.toNat := by
  rw [limit, h, Option.getD_some]

theorem Command.limit_of_none {c : Command} (h : c.maxMessages = none) : c.limit = 10 := by
  rw [limit, h]
  rfl

namespace Store

variable {s s' : Store} {c : Command} {r : Except ExecuteError Response}

theorem Executes.of_acceptable (h : Executes s c s' r) (hc : c.Acceptable) :
    (∀ e, r ≠ .error (.missingBody e)) ∧ (∀ text, r ≠ .error (.service (.rejected text))) ∧
      ((∃ q, r = .error (.service (.queueNotFound q))) ↔ ¬ s.Has c.target) := by
  refine ⟨?_, ?_, ?_⟩
  · intro e he
    exact hc.1 (h.exists_missingBody_iff.mp ⟨e, he⟩)
  · intro text he
    obtain ⟨_, hk, hl⟩ := h.exists_rejected_iff.mp ⟨text, he⟩
    exact hl (hc.2 hk)
  · rw [h.exists_queueNotFound_iff]
    exact and_iff_right hc.1

theorem Executes.rejected_iff (h : Executes s c s' r) (hq : s.Has c.target) :
    (∃ text, r = .error (.service (.rejected text))) ↔
      c.kind = .receive ∧ ¬ (1 ≤ c.limit ∧ c.limit ≤ receiveLimit) := by
  rw [h.exists_rejected_iff]
  exact and_iff_right hq

end Store

namespace Lint

open Session (Act after)

def Issue.Names (i : Issue) (key : ParameterKey) : Prop :=
  i.level = .error ∧ i.category = .receive ∧ key.name.toList <+: i.message.toList

theorem prefix_maxMessagesText (config : ReceiveConfig) (n : UInt32) :
    ParameterKey.maxMessages.name.toList <+: (maxMessagesText config n).toList := by
  unfold maxMessagesText
  rw [String.append_assoc, String.append_assoc, String.append_assoc, String.append_assoc,
    String.toList_append]
  refine List.IsPrefix.trans ⟨[' '], ?_⟩ (List.prefix_append _ _)
  decide

theorem exists_names_maxMessages {config : ReceiveConfig} {c : Command} :
    (∃ i ∈ receiveIssues config c, i.Names .maxMessages) ↔
      c.kind = .receive ∧ ∃ n, c.maxMessages = some n ∧
        ¬ (config.minMaxMessages ≤ n ∧ n ≤ config.maxMaxMessages) := by
  constructor
  · rintro ⟨i, hi, _, _, hname⟩
    obtain ⟨hk, ⟨n, hn, hlimit, _⟩ | ⟨n, _, _, rfl⟩ | ⟨n, _, _, rfl⟩⟩ := mem_receiveIssues.mp hi
    · exact ⟨hk, n, hn, hlimit⟩
    · simp [ParameterKey.name, Issue.at] at hname
    · simp [ParameterKey.name, Issue.at] at hname
  · rintro ⟨hk, n, hn, hlimit⟩
    exact ⟨_, mem_receiveIssues.mpr ⟨hk, .inl ⟨n, hn, hlimit, rfl⟩⟩, rfl, rfl,
      prefix_maxMessagesText config n⟩

structure Config.Strict (config : Config) : Prop where
  body : config.body.enabled = true
  receive : config.receive.enabled = true
  requireBody : config.body.requireBody = true
  atLeast : 1 ≤ config.receive.minMaxMessages
  atMost : config.receive.maxMaxMessages ≤ 10

theorem limit_of_within {config : ReceiveConfig} {c : Command} (hmin : 1 ≤ config.minMaxMessages)
    (hmax : config.maxMaxMessages ≤ 10)
    (h : ∀ n, c.maxMessages = some n → config.minMaxMessages ≤ n ∧ n ≤ config.maxMaxMessages) :
    1 ≤ c.limit ∧ c.limit ≤ Store.receiveLimit := by
  cases hn : c.maxMessages with
  | none =>
      rw [Command.limit_of_none hn]
      decide
  | some n =>
      obtain ⟨hlow, hhigh⟩ := h n hn
      rw [Command.limit_of_some hn]
      exact ⟨UInt32.le_iff_toNat_le.mp (UInt32.le_trans hmin hlow),
        UInt32.le_iff_toNat_le.mp (UInt32.le_trans hhigh hmax)⟩

theorem acceptable_of_check {config : Config} {cs : List Command} {c : Command}
    (hconfig : config.Strict) (h : (check config cs).hasErrors = false) (hc : c ∈ cs) :
    c.Acceptable := by
  have hnone : ∀ i ∈ issues config cs, i.level ≠ .error := by
    intro i hi hlevel
    rw [hasErrors_check.mpr ⟨i, hi, hlevel⟩] at h
    cases h
  constructor
  · intro hmissing
    have hi := (mem_bodyIssues_error rfl).mpr ⟨hconfig.requireBody, hmissing, rfl⟩
    exact hnone _ (mem_issues.mpr ⟨c, hc, .inl ⟨hconfig.body, hi⟩⟩) rfl
  · intro hk
    refine limit_of_within hconfig.atLeast hconfig.atMost ?_
    intro n hn
    by_contra hlimit
    obtain ⟨i, hi, hnames⟩ := exists_names_maxMessages.mpr ⟨hk, n, hn, hlimit⟩
    exact hnone i (mem_issues.mpr ⟨c, hc, .inr (.inl ⟨hconfig.receive, hi⟩)⟩) hnames.1

theorem executeAll_of_acceptable (acts : List Act) {order : List Command}
    (h : ∀ c ∈ order, c.Acceptable) :
    List.Forall₂ (fun c r =>
        (∀ e, r ≠ .error (.missingBody e)) ∧ (∀ text, r ≠ .error (.service (.rejected text))) ∧
          ((∃ q, r = .error (.service (.queueNotFound q))) ↔ Act.create c.target ∉ acts))
      order ((after {} acts).executeAll order).2 := by
  induction order generalizing acts with
  | nil => exact .nil
  | cons c order ih =>
      have hrest := ih (acts ++ [.execute c]) (fun x hx => h x (List.mem_cons_of_mem _ hx))
      simp only [Session.after_concat, Session.act, List.mem_append, List.mem_singleton, reduceCtorEq,
        or_false] at hrest
      rw [Store.executeAll_cons]
      refine .cons ?_ hrest
      rw [← Session.has_after]
      exact ((after {} acts).executes c).of_acceptable (h c (List.mem_cons_self ..))

theorem mem_check_body_error {c : Command} {i : Issue} (hlevel : i.level = .error)
    (hcategory : i.category = .body) :
    i ∈ (check {} [c]).issues ↔ (c.kind = .send ∧ c.body = none) ∧
      i = .at .error .body c.range.first ("'" ++ c.title ++ "' has no valid JSON body to send") := by
  rw [mem_issues_check, mem_issues]
  constructor
  · rintro ⟨x, hx, h | h | h⟩
    · obtain rfl := List.mem_singleton.mp hx
      exact ((mem_bodyIssues_error hlevel).mp h.2).2
    · obtain ⟨_, ⟨_, _, _, rfl⟩ | ⟨_, _, _, rfl⟩ | ⟨_, _, _, rfl⟩⟩ := mem_receiveIssues.mp h.2 <;>
        cases hcategory
    · rw [level_of_mem_targetIssues h.2] at hlevel
      cases hlevel
  · intro h
    exact ⟨c, List.mem_singleton_self c, .inl ⟨rfl, (mem_bodyIssues_error hlevel).mpr ⟨rfl, h⟩⟩⟩

theorem exists_check_names {c : Command} :
    (∃ i ∈ (check {} [c]).issues, i.Names .maxMessages) ↔
      ∃ i ∈ receiveIssues {} c, i.Names .maxMessages := by
  constructor
  · rintro ⟨i, hi, hnames⟩
    obtain ⟨x, hx, h | h | h⟩ := mem_issues.mp (mem_issues_check.mp hi)
    · obtain ⟨_, _, rfl⟩ := (mem_bodyIssues_error hnames.1).mp h.2
      cases hnames.2.1
    · obtain rfl := List.mem_singleton.mp hx
      exact ⟨i, h.2, hnames⟩
    · have hlevel := level_of_mem_targetIssues h.2
      rw [hnames.1] at hlevel
      cases hlevel
  · rintro ⟨i, hi, hnames⟩
    refine ⟨i, mem_issues_check.mpr (mem_issues.mpr ?_), hnames⟩
    exact ⟨c, List.mem_singleton_self c, .inr (.inl ⟨rfl, hi⟩)⟩

theorem outside_iff {c : Command} :
    (∃ n, c.maxMessages = some n ∧ ¬ (1 ≤ n ∧ n ≤ 10)) ↔
      ¬ (1 ≤ c.limit ∧ c.limit ≤ Store.receiveLimit) := by
  cases hn : c.maxMessages with
  | none =>
      rw [Command.limit_of_none hn]
      decide
  | some n =>
      rw [Command.limit_of_some hn]
      simp [UInt32.le_iff_toNat_le, Store.receiveLimit]

theorem check_agrees_with_execute :
    (∀ (config : Config) (cs : List Command), config.Strict →
        (check config cs).hasErrors = false →
        ∀ (acts : List Act) (order : List Command), (∀ c ∈ order, c ∈ cs) →
          List.Forall₂ (fun c r =>
              (∀ e, r ≠ .error (.missingBody e)) ∧
                (∀ text, r ≠ .error (.service (.rejected text))) ∧
                ((∃ q, r = .error (.service (.queueNotFound q))) ↔ Act.create c.target ∉ acts))
            order ((after {} acts).executeAll order).2) ∧
      ∀ c : Command,
        ((∃ i ∈ (check {} [c]).issues, i.level = .error ∧ i.category = .body) ↔
            ∃ e, Invocation.ofCommand c = .error e) ∧
          (∀ i ∈ (check {} [c]).issues, i.level = .error → i.category = .body →
            i.line = c.range.first + 1) ∧
          (∀ e, Invocation.ofCommand c = .error e → e.line = c.range.first + 1) ∧
          ∀ s : Store, s.Has c.target →
            ((∃ i ∈ (check {} [c]).issues, i.Names .maxMessages) ↔
              ∃ text, (s.execute c).2 = .error (.service (.rejected text))) := by
  constructor
  · intro config cs hconfig h acts order horder
    exact executeAll_of_acceptable acts (fun c hc => acceptable_of_check hconfig h (horder c hc))
  · intro c
    refine ⟨⟨?_, ?_⟩, ?_, ?_, ?_⟩
    · rintro ⟨i, hi, hlevel, hcategory⟩
      have hmissing := ((mem_check_body_error hlevel hcategory).mp hi).1
      exact ⟨_, Invocation.ofCommand_eq_error_iff.mpr ⟨hmissing, rfl⟩⟩
    · rintro ⟨e, he⟩
      have hmissing := (Invocation.ofCommand_eq_error_iff.mp he).1
      exact ⟨_, (mem_check_body_error rfl rfl).mpr ⟨hmissing, rfl⟩, rfl, rfl⟩
    · intro i hi hlevel hcategory
      rw [((mem_check_body_error hlevel hcategory).mp hi).2]
      rfl
    · intro e he
      rw [(Invocation.ofCommand_eq_error_iff.mp he).2]
    · intro s hs
      rw [(s.executes c).rejected_iff hs, exists_check_names, exists_names_maxMessages, ← outside_iff]

theorem check_agrees_with_execute_on_two_queues :
    let ten : Command := { Command.bare .receive "q" with maxMessages := some 10 }
    let eleven : Command := { Command.bare .receive "q" with maxMessages := some 11 }
    let lost : Command := Command.bare .purge "r"
    let s := after {} [.create "q"]
    (check {} [lost, ten]).hasErrors = false ∧
      (∃ q, (s.execute lost).2 = .error (.service (.queueNotFound q))) ∧
      (¬ ∃ q, ((s.execute lost).1.execute ten).2 = .error (.service (.queueNotFound q))) ∧
      s.Has "q" ∧ (∃ text, (s.execute eleven).2 = .error (.service (.rejected text))) ∧
      ∃ i ∈ (check {} [eleven]).issues, i.Names .maxMessages := by
  intro ten eleven lost s
  have hclean : (check {} [lost, ten]).hasErrors = false := by decide
  have hstrict : Config.Strict {} := ⟨rfl, rfl, rfl, by decide, by decide⟩
  have hhas : s.Has "q" := by
    rw [Session.has_after]
    exact List.mem_singleton_self _
  have hrejected : ∃ text, (s.execute eleven).2 = .error (.service (.rejected text)) := ⟨_, rfl⟩
  obtain ⟨hreport, hdefault⟩ := check_agrees_with_execute
  cases hreport {} [lost, ten] hstrict hclean [.create "q"] [lost, ten] (fun _ h => h) with
  | cons hlost htail =>
      cases htail with
      | cons hten _ =>
          refine ⟨hclean, hlost.2.2.mpr ?_, ?_, hhas, hrejected,
            ((hdefault eleven).2.2.2 s hhas).mpr hrejected⟩
          · intro hcreated
            exact absurd (Act.create.inj (List.mem_singleton.mp hcreated)) (by decide)
          · intro hfound
            exact hten.2.2.mp hfound (List.mem_singleton_self _)

end Lint

end QueueScript
