import QueueScript.Proofs.Script.Line
import QueueScript.Script.Scan

namespace QueueScript.Script.State

variable {d : Defaults} {i : Nat} {line : Line} {s : State}

def after (d : Defaults) : Nat → List Line → State → State
  | _, [], s => s
  | index, line :: lines, s => after d (index + 1) lines (s.step d index line).1

def ended (d : Defaults) : Nat → List Line → State → List Command
  | _, [], _ => []
  | index, line :: lines, s =>
      (s.step d index line).2.toList ++ ended d (index + 1) lines (s.step d index line).1

@[simp] theorem close_idle (last : Nat) : idle.close last = none := rfl

theorem scan_nil (d : Defaults) (i : Nat) (s : State) :
    scan d i [] s = (s.close (i - 1)).toList := rfl

theorem scan_cons (d : Defaults) (i : Nat) (l : Line) (ls : List Line) (s : State) :
    scan d i (l :: ls) s = (s.step d i l).2.toList ++ scan d (i + 1) ls (s.step d i l).1 := rfl

theorem scan_append (d : Defaults) (i : Nat) (ls ms : List Line) (s : State) :
    scan d i (ls ++ ms) s = ended d i ls s ++ scan d (i + ls.length) ms (after d i ls s) := by
  induction ls generalizing i s with
  | nil => rfl
  | cons l ls ih =>
      simp only [List.cons_append, scan, ended, after, ih, List.length_cons, List.append_assoc]
      rw [Nat.add_right_comm i 1 ls.length, ← Nat.add_assoc]

theorem scan_eq (d : Defaults) (i : Nat) (ls : List Line) (s : State) :
    scan d i ls s = ended d i ls s ++ ((after d i ls s).close (i + ls.length - 1)).toList := by
  have h := scan_append d i ls [] s
  rwa [List.append_nil] at h

theorem after_append (d : Defaults) (i : Nat) (ls ms : List Line) (s : State) :
    after d i (ls ++ ms) s = after d (i + ls.length) ms (after d i ls s) := by
  induction ls generalizing i s with
  | nil => rfl
  | cons l ls ih =>
      simp only [List.cons_append, after, ih, List.length_cons]
      rw [Nat.add_right_comm i 1 ls.length, ← Nat.add_assoc]

theorem after_concat (d : Defaults) (i : Nat) (ls : List Line) (l : Line) (s : State) :
    after d i (ls ++ [l]) s = ((after d i ls s).step d (i + ls.length) l).1 :=
  after_append d i ls [l] s

theorem ended_append (d : Defaults) (i : Nat) (ls ms : List Line) (s : State) :
    ended d i (ls ++ ms) s =
      ended d i ls s ++ ended d (i + ls.length) ms (after d i ls s) := by
  induction ls generalizing i s with
  | nil => rfl
  | cons l ls ih =>
      simp only [List.cons_append, ended, after, ih, List.length_cons, List.append_assoc]
      rw [Nat.add_right_comm i 1 ls.length, ← Nat.add_assoc]

theorem step_of_silent (h : classify line = .silent) : s.step d i line = (s, none) := by
  simp only [step, h]

theorem step_of_header {k : Kind} {t : String} (h : classify line = .header k t) :
    s.step d i line = (.inBlock (.start d k t i), s.close (i - 1)) := by
  simp only [step, h]

theorem step_of_content (h : classify line = .content) :
    s.step d i line = (s.contentLine i line, none) := by
  simp only [step, h]

theorem step_delimiter_inBlock {a : Draft} (h : classify line = .delimiter) :
    (inBlock a).step d i line = (.idle, some (a.finish i)) := by
  simp only [step, h]

def bodyOpen : State → Bool
  | .inBody _ _ => true
  | _ => false

theorem step_delimiter_of_bodyOpen (h : classify line = .delimiter) (hs : s.bodyOpen = true) :
    s.step d i line = (s, none) := by
  cases s with
  | idle => simp [bodyOpen] at hs
  | inBlock a => simp [bodyOpen] at hs
  | inBody a b => simp only [step, h]

theorem step_idle {l : Line} (h : ∀ k t, classify l ≠ .header k t) :
    idle.step d i l = (.idle, none) := by
  cases hc : classify l with
  | silent => exact step_of_silent hc
  | delimiter => simp only [step, hc]
  | header k t => exact absurd hc (h k t)
  | content => simp only [step, hc, contentLine]

def Passes (d : Defaults) (i : Nat) (ls : List Line) (s t : State) : Prop :=
  after d i ls s = t ∧ ended d i ls s = []

theorem Passes.nil (d : Defaults) (i : Nat) (s : State) : Passes d i [] s s := ⟨rfl, rfl⟩

theorem Passes.cons {l : Line} {ls : List Line} {s t u : State} (hl : s.step d i l = (t, none))
    (h : Passes d (i + 1) ls t u) : Passes d i (l :: ls) s u := by
  obtain ⟨hafter, hended⟩ := h
  constructor
  · simp only [after, hl, hafter]
  · simp only [ended, hl, hended, Option.toList_none, List.nil_append]

theorem Passes.append {ls ms : List Line} {s t u : State} (hl : Passes d i ls s t)
    (hm : Passes d (i + ls.length) ms t u) : Passes d i (ls ++ ms) s u := by
  obtain ⟨hafter, hended⟩ := hl
  constructor
  · rw [after_append, hafter, hm.1]
  · rw [ended_append, hafter, hended, hm.2, List.append_nil]

theorem Passes.scan_append {ls : List Line} {s t : State} (h : Passes d i ls s t)
    (ms : List Line) : scan d i (ls ++ ms) s = scan d (i + ls.length) ms t := by
  rw [State.scan_append, h.1, h.2, List.nil_append]

theorem passes_silent (s : State) {ls : List Line} (h : ∀ l ∈ ls, classify l = .silent) :
    Passes d i ls s s := by
  induction ls generalizing i with
  | nil => exact .nil d i s
  | cons l ls ih =>
      obtain ⟨hl, hls⟩ := List.forall_mem_cons.mp h
      exact .cons (step_of_silent hl) (ih hls)

end QueueScript.Script.State
