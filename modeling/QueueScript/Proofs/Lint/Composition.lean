import Mathlib.Algebra.GroupWithZero.Nat
import Mathlib.Data.List.Pairwise
import QueueScript.Proofs.Lint.Report
import QueueScript.Proofs.Script.Places
/-!
The report on a document is put together from the reports on its commands. The checks go over all
commands one check after the other; sorting by lines brings the issues of each command together again,
as commands are apart.
-/

namespace QueueScript.Lint

section

variable {α : Type} (key : α → Nat)

theorem filter_mergeSort (xs : List α) (n : Nat) :
    (xs.mergeSort (fun a b => decide (key a ≤ key b))).filter (fun a => key a = n) =
      xs.filter (fun a => key a = n) := by
  have hequal : (xs.filter (fun a => key a = n)).Pairwise
      (fun a b => decide (key a ≤ key b) = true) := by
    refine List.pairwise_of_forall_mem_list (fun a ha b hb => ?_)
    have ha := List.of_mem_filter ha
    have hb := List.of_mem_filter hb
    simp_all
  have hsublist := (List.sublist_mergeSort (by simp; omega) (by simp; omega) hequal
    List.filter_sublist).filter (fun a => decide (key a = n))
  rw [List.filter_filter] at hsublist
  simp only [Bool.and_self] at hsublist
  exact (hsublist.eq_of_length ((List.mergeSort_perm xs _).filter _).length_eq.symm).symm

theorem pairwise_mergeSort (xs : List α) :
    (xs.mergeSort (fun a b => decide (key a ≤ key b))).Pairwise (fun a b => key a ≤ key b) := by
  have hsorted := List.pairwise_mergeSort
    (fun (a b c : α) (hab : decide (key a ≤ key b)) (hbc : decide (key b ≤ key c)) =>
      decide_eq_true (Nat.le_trans (of_decide_eq_true hab) (of_decide_eq_true hbc)))
    (fun a b => by simpa using Nat.le_total (key a) (key b)) xs
  simpa using hsorted

theorem eq_nil_of_filter {ys : List α} (h : ∀ n, [] = ys.filter (fun a => key a = n)) : ys = [] := by
  cases ys with
  | nil => rfl
  | cons y ys => simpa using h (key y)

theorem eq_of_filter_eq {xs ys : List α} (hxs : xs.Pairwise (fun a b => key a ≤ key b))
    (hys : ys.Pairwise (fun a b => key a ≤ key b))
    (h : ∀ n, xs.filter (fun a => key a = n) = ys.filter (fun a => key a = n)) : xs = ys := by
  induction xs generalizing ys with
  | nil => exact (eq_nil_of_filter key h).symm
  | cons x xs ih =>
      cases ys with
      | nil => exact eq_nil_of_filter key (fun n => (h n).symm)
      | cons y ys =>
          obtain ⟨hx, hxtail⟩ := List.pairwise_cons.mp hxs
          obtain ⟨hy, hytail⟩ := List.pairwise_cons.mp hys
          have hle {a b : α} {as bs : List α} (hb : ∀ c ∈ bs, key b ≤ key c)
              (hf : (a :: as).filter (fun c => key c = key a) =
                (b :: bs).filter (fun c => key c = key a)) : key b ≤ key a := by
            have hmem : a ∈ (b :: bs).filter (fun c => key c = key a) := by
              rw [← hf]
              simp
            rcases List.mem_cons.mp (List.mem_of_mem_filter hmem) with rfl | hmem
            · exact Nat.le_refl _
            · exact hb a hmem
          have hkey : key x = key y :=
            Nat.le_antisymm (hle hx (h (key y)).symm) (hle hy (h (key x)))
          obtain ⟨rfl, _⟩ : x = y ∧ _ := by simpa [hkey] using h (key y)
          have htail : xs = ys := by
            refine ih hxtail hytail (fun n => ?_)
            by_cases hn : key x = n
            · simpa [hn] using h n
            · simpa [hn] using h n
          rw [htail]

end

section

variable {config : Config} {c : Command} {cs : List Command}

theorem issues_check : (check config cs).issues =
    (issues config cs).mergeSort (fun a b => decide (a.line ≤ b.line)) := by
  rw [check, Report.sortByLine, Report.issues_ofIssues]

theorem sorted_check (config : Config) (cs : List Command) :
    (check config cs).issues.Pairwise (fun a b => a.line ≤ b.line) := by
  rw [issues_check]
  exact pairwise_mergeSort Issue.line (issues config cs)

theorem count_check (config : Config) (cs : List Command) (level : Level) :
    (check config cs).count level =
      (check config cs).issues.countP (fun i => i.level = level) := by
  rw [issues_check, (List.mergeSort_perm _ _).countP_eq, ← Report.count_ofIssues]
  cases level <;> rfl

theorem pass_cons (b : Bool) (f : Command → List Issue) (c : Command) (cs : List Command) :
    (if b then (c :: cs).flatMap f else []) =
      (if b then [c].flatMap f else []) ++ (if b then cs.flatMap f else []) := by
  cases b <;> simp

theorem filter_issues_cons {n : Nat}
    (h : (issues config [c]).filter (fun i => i.line = n) = [] ∨
      (issues config cs).filter (fun i => i.line = n) = []) :
    (issues config (c :: cs)).filter (fun i => i.line = n) =
      (issues config [c]).filter (fun i => i.line = n) ++
        (issues config cs).filter (fun i => i.line = n) := by
  rw [issues, pass_cons _ _ c cs, pass_cons _ _ c cs, pass_cons _ _ c cs]
  simp only [issues, List.filter_append, List.append_eq_nil_iff] at h ⊢
  rcases h with ⟨⟨hbody, hreceive⟩, htarget⟩ | ⟨⟨hbody, hreceive⟩, htarget⟩
  · simp only [hbody, hreceive, htarget, List.nil_append, List.append_nil]
  · simp only [hbody, hreceive, htarget, List.append_nil]

theorem issues_check_cons
    (h : ∀ i ∈ (check config [c]).issues, ∀ j ∈ (check config cs).issues, i.line < j.line) :
    (check config (c :: cs)).issues = (check config [c]).issues ++ (check config cs).issues := by
  refine eq_of_filter_eq Issue.line (sorted_check config (c :: cs)) ?_ (fun n => ?_)
  · rw [List.pairwise_append]
    exact ⟨sorted_check config [c], sorted_check config cs,
      fun i hi j hj => Nat.le_of_lt (h i hi j hj)⟩
  · have hapart : (issues config [c]).filter (fun i => i.line = n) = [] ∨
        (issues config cs).filter (fun i => i.line = n) = [] := by
      rw [or_iff_not_imp_left]
      intro hne
      obtain ⟨i, hi⟩ := List.exists_mem_of_ne_nil _ hne
      obtain ⟨hi, hline⟩ := List.mem_filter.mp hi
      refine List.filter_eq_nil_iff.mpr (fun j hj => ?_)
      have hlt := h i (mem_issues_check.mpr hi) j (mem_issues_check.mpr hj)
      simp only [decide_eq_true_eq] at hline ⊢
      omega
    rw [List.filter_append, issues_check, issues_check, issues_check, filter_mergeSort Issue.line,
      filter_mergeSort Issue.line, filter_mergeSort Issue.line, filter_issues_cons hapart]

theorem line_of_mem_check {i : Issue} (hplaced : c.Placed) (hrange : c.range.first ≤ c.range.last)
    (h : i ∈ (check config [c]).issues) :
    c.range.first + 1 ≤ i.line ∧ i.line ≤ c.range.last + 1 := by
  have hheader : ∀ level category text, i = .at level category c.range.first text →
      c.range.first + 1 ≤ i.line ∧ i.line ≤ c.range.last + 1 := by
    rintro level category text rfl
    exact ⟨Nat.le_refl _, Nat.succ_le_succ hrange⟩
  obtain ⟨x, hx, ⟨_, hi⟩ | ⟨_, hi⟩ | ⟨_, hi⟩⟩ := mem_issues.mp (mem_issues_check.mp h)
  all_goals obtain rfl := List.mem_singleton.mp hx
  · rw [bodyIssues, List.mem_append] at hi
    rcases hi with hi | hi
    · obtain ⟨w, hw, rfl⟩ := List.mem_map.mp hi
      obtain ⟨hfirst, hlast⟩ := hplaced.warnings w hw
      exact ⟨Nat.succ_le_succ (Nat.le_of_lt hfirst), Nat.succ_le_succ hlast⟩
    · split at hi
      · exact hheader _ _ _ (List.mem_singleton.mp hi)
      · cases hi
  · obtain ⟨_, ⟨_, _, _, hi⟩ | ⟨_, _, _, hi⟩ | ⟨_, _, _, hi⟩⟩ := mem_receiveIssues.mp hi
    all_goals exact hheader _ _ _ hi
  · rw [targetIssues] at hi
    split at hi
    · cases hi
    · exact hheader _ _ _ (List.mem_singleton.mp hi)

theorem issues_check_eq_flatMap
    (hline : ∀ c ∈ cs, ∀ i ∈ (check config [c]).issues,
      c.range.first + 1 ≤ i.line ∧ i.line ≤ c.range.last + 1)
    (hcs : cs.Pairwise (fun a b => a.range.last < b.range.first)) :
    (check config cs).issues = cs.flatMap (fun c => (check config [c]).issues) := by
  induction cs with
  | nil => simp [issues_check, issues]
  | cons c cs ih =>
      obtain ⟨hc, hcs⟩ := List.pairwise_cons.mp hcs
      obtain ⟨hlast, hline⟩ := List.forall_mem_cons.mp hline
      have ih := ih hline hcs
      rw [List.flatMap_cons, ← ih]
      refine issues_check_cons (fun i hi j hj => ?_)
      rw [ih] at hj
      obtain ⟨x, hx, hj⟩ := List.mem_flatMap.mp hj
      have hi := (hlast i hi).2
      have hj := (hline x hx j hj).1
      have hapart := hc x hx
      omega

theorem count_check_eq_sum
    (h : (check config cs).issues = cs.flatMap (fun c => (check config [c]).issues))
    (level : Level) :
    (check config cs).count level = (cs.map (fun c => (check config [c]).count level)).sum := by
  simp only [count_check, h, List.countP_flatMap]
  rfl

end

open Script (Defaults parse)

theorem check_parse (config : Config) (d : Defaults) (text : String) :
    (check config (parse d text)).issues =
        (parse d text).flatMap (fun c => (check config [c]).issues) ∧
      (check config (parse d text)).errorCount =
        ((parse d text).map (fun c => (check config [c]).errorCount)).sum ∧
      (check config (parse d text)).warningCount =
        ((parse d text).map (fun c => (check config [c]).warningCount)).sum ∧
      (check config (parse d text)).errorCount =
        (check config (parse d text)).issues.countP (fun i => i.level = .error) ∧
      (check config (parse d text)).warningCount =
        (check config (parse d text)).issues.countP (fun i => i.level = .warning) ∧
      (check config (parse d text)).issues.Pairwise (fun a b => a.line ≤ b.line) ∧
      ∀ c ∈ parse d text, ∀ i ∈ (check config [c]).issues,
        c.range.first + 1 ≤ i.line ∧ i.line ≤ c.range.last + 1 := by
  have hline : ∀ c ∈ parse d text, ∀ i ∈ (check config [c]).issues,
      c.range.first + 1 ≤ i.line ∧ i.line ≤ c.range.last + 1 := fun c hc i hi =>
    line_of_mem_check (Script.placed_of_mem_parse hc) (Script.range_of_mem_parse hc).1 hi
  have hissues := issues_check_eq_flatMap hline (Script.pairwise_parse d text)
  exact ⟨hissues, count_check_eq_sum hissues .error, count_check_eq_sum hissues .warning,
    count_check config _ .error, count_check config _ .warning, sorted_check config _, hline⟩

theorem check_parse_issues_regrouped :
    let cs := parse ⟨"p", "eu"⟩ "RECEIVE q\nmax-messages: 50\nwait-time: x\nSEND https://r/a"
    (issues {} cs).map (fun i => (i.category, i.line)) =
        [(.body, 3), (.body, 4), (.receive, 1), (.target, 1)] ∧
      (cs.flatMap (fun c => (check {} [c]).issues)).map (fun i => (i.category, i.line)) =
        [(.receive, 1), (.target, 1), (.body, 3), (.body, 4)] ∧
      (cs.map (fun c => (check {} [c]).errorCount)).sum = 2 ∧
      ∃ c ∈ cs, ∃ i ∈ (check {} [c]).issues,
        i.line = 3 ∧ c.range.first + 1 ≤ i.line ∧ i.line ≤ c.range.last + 1 := by
  intro cs
  obtain ⟨hissues, herrors, _, _, _, _, hline⟩ :=
    check_parse {} ⟨"p", "eu"⟩ "RECEIVE q\nmax-messages: 50\nwait-time: x\nSEND https://r/a"
  have hmem : cs.get ⟨0, by decide⟩ ∈ cs := List.get_mem cs ⟨0, by decide⟩
  have hwarning : Issue.at .warning .body 2 "invalid integer 'x' for 'wait-time' at line 3" ∈
      (check {} [cs.get ⟨0, by decide⟩]).issues := by
    rw [mem_issues_check]
    decide
  refine ⟨by decide, ?_, ?_, _, hmem, _, hwarning, rfl, hline _ hmem _ hwarning⟩
  · have hall : issues {} cs = [
        .at .warning .body 2 "invalid integer 'x' for 'wait-time' at line 3",
        .at .error .body 3 "'SEND https://r/a' has no valid JSON body to send",
        .at .error .receive 0 "max-messages 50 is outside 1..=10",
        .at .warning .target 0 "Target 'q' is not a queue URL"] := by decide
    rw [← hissues, issues_check, hall]
    simp [List.mergeSort, List.MergeSort.Internal.splitInTwo, Issue.at]
  · rw [← herrors]
    decide

end QueueScript.Lint
