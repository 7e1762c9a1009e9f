import Mathlib.Data.List.Forall2
import QueueScript.Proofs.Script.Insertion
/-!
A delimiter before a header can be left out. The block that it ended then reaches further, and nothing
else is read differently.
-/

namespace QueueScript.Script

open Text (splitLines)
open State (after ended scan)

def leadIn (lines : List Line) : List Line := lines.takeWhile (fun l => !isHeader l)

variable {d : Defaults} {i : Nat} {l : Line} {ls : List Line}

theorem leadIn_cons_of_ne (h : ∀ k t, classify l ≠ .header k t) :
    leadIn (l :: ls) = l :: leadIn ls := by
  rw [leadIn, List.takeWhile_cons_of_pos (by simp [isHeader_eq_false h]), leadIn]

theorem headers_append (i : Nat) (ls ms : List Line) :
    headers i (ls ++ ms) = headers i ls ++ headers (i + ls.length) ms := by
  rw [headers, List.zipIdx_append, List.filterMap_append, headers, headers]

theorem State.exists_scan_inBlock (a : Draft) (h : ∀ m ∈ leadIn ls, isNote m = true) :
    ∃ last, i ≤ last + 1 ∧ scan d i ls (.inBlock a) = a.finish last :: scan d i ls .idle := by
  -- From the header on both scans are in the same block. Before it, only the open one heeds a delimiter.
  induction ls generalizing i with
  | nil => exact ⟨i - 1, by omega, rfl⟩
  | cons l ls ih =>
      cases hc : classify l with
      | header k t =>
          refine ⟨i - 1, by omega, ?_⟩
          rw [scan_cons, scan_cons, step_of_header hc, step_of_header hc]
          rfl
      | delimiter =>
          refine ⟨i, by omega, ?_⟩
          rw [scan_cons, scan_cons, step_delimiter_inBlock hc, step_idle (by simp [hc])]
          rfl
      | silent =>
          rw [leadIn_cons_of_ne (by simp [hc])] at h
          obtain ⟨last, hlast, hscan⟩ := ih (i := i + 1) (List.forall_mem_cons.mp h).2
          refine ⟨last, by omega, ?_⟩
          rw [scan_cons, scan_cons, step_of_silent hc, step_of_silent hc]
          exact hscan
      | content =>
          rw [leadIn_cons_of_ne (by simp [hc])] at h
          have hnote := (List.forall_mem_cons.mp h).1
          rw [isNote_of_content hc] at hnote
          cases hnote

theorem State.scan_delimiter (s : State) (hl : classify l = .delimiter)
    (h : ∀ m ∈ leadIn ls, isNote m = true) :
    scan d i (l :: ls) s = scan d (i + 1) ls s ∨
      ∃ c last tail, s.opened = some c.headline ∧ c.range.last ≤ last ∧
        scan d i (l :: ls) s = c :: tail ∧ scan d (i + 1) ls s = c.endedAt last :: tail := by
  rw [scan_cons]
  cases s with
  | idle =>
      rw [step_idle (by simp [hl])]
      exact .inl rfl
  | inBody a b =>
      -- A body that is open takes the delimiter for a note.
      rw [step_delimiter_of_bodyOpen hl rfl]
      exact .inl rfl
  | inBlock a =>
      obtain ⟨last, hlast, hscan⟩ := exists_scan_inBlock (d := d) (i := i + 1) a h
      rw [step_delimiter_inBlock hl]
      exact .inr ⟨a.finish i, last, _, rfl, Nat.le_of_succ_le_succ hlast, rfl, hscan⟩

theorem State.length_scan_of_opened {o : Nat × Kind × String}
    (h : (after d 0 ls .idle).opened = some o) :
    (scan d 0 ls .idle).length = (ended d 0 ls .idle).length + 1 := by
  have hopen : after d 0 ls .idle ≠ .idle := by
    intro hidle
    rw [hidle] at h
    cases h
  obtain ⟨c, hc, _⟩ := close_of_ne_idle hopen (0 + ls.length - 1)
  rw [scan_eq, hc, List.length_append]
  rfl

/-- Two documents that differ in one line, a delimiter in the one and blank in the other: their commands are
the same but for one, the last that opens before that line. -/
theorem scan_without_delimiter {m : Line} (xs : List Line) (hl : classify l = .delimiter)
    (hm : classify m = .silent) (h : ∀ x ∈ leadIn ls, isNote x = true) :
    scan d 0 (xs ++ l :: ls) .idle = scan d 0 (xs ++ m :: ls) .idle ∨
      ∃ before c last tail, before.length + 1 = (scan d 0 xs .idle).length ∧ c.range.last ≤ last ∧
        scan d 0 (xs ++ l :: ls) .idle = before ++ c :: tail ∧
        scan d 0 (xs ++ m :: ls) .idle = before ++ c.endedAt last :: tail := by
  have hblank : scan d 0 (xs ++ m :: ls) .idle =
      ended d 0 xs .idle ++ scan d (0 + xs.length + 1) ls (after d 0 xs .idle) := by
    rw [State.scan_append, State.scan_cons, State.step_of_silent hm]
    rfl
  rw [hblank, State.scan_append]
  rcases State.scan_delimiter (d := d) (i := 0 + xs.length) (after d 0 xs .idle) hl h with
    hsame | ⟨c, last, tail, hopened, hlast, hdelimited, hlater⟩
  · exact .inl (by rw [hsame])
  · refine .inr ⟨_, c, last, tail, (State.length_scan_of_opened hopened).symm, hlast, ?_, ?_⟩
    · rw [hdelimited]
    · rw [hlater]

theorem splitLines_between (a b : String) {m : Line} (hm : '\n' ∉ m) :
    splitLines (a.toList ++ '\n' :: (m ++ '\n' :: b.toList)) =
      splitLines a.toList ++ m :: splitLines b.toList := by
  rw [Text.splitLines_append_feed, Text.splitLines_append_feed, Text.splitLines_of_not_mem hm]
  rfl

theorem parse_without_delimiter (d : Defaults) (a b : String)
    (h : ∀ l ∈ leadIn (splitLines b.toList), isNote l = true) :
    let delimited := parse d (a ++ "\n###\n" ++ b)
    let blank := parse d (a ++ "\n\n" ++ b)
    List.Forall₂ (fun x y => x = y.endedAt x.range.last ∧ x.range.last ≤ y.range.last)
        delimited blank ∧
      (∀ n, n + 1 ≠ (parse d a).length → delimited[n]? = blank[n]?) ∧
      (parse d a).map Command.headline <+: delimited.map Command.headline := by
  intro delimited blank
  have hdelimited : delimited =
      scan d 0 (splitLines a.toList ++ ['#', '#', '#'] :: splitLines b.toList) .idle := by
    rw [← splitLines_between a b (by decide)]
    simp [delimited, parse]
  have hblank : blank = scan d 0 (splitLines a.toList ++ [] :: splitLines b.toList) .idle := by
    rw [← splitLines_between a b (by simp)]
    simp [blank, parse]
  have hsame (cs : List Command) : List.Forall₂
      (fun x y => x = y.endedAt x.range.last ∧ x.range.last ≤ y.range.last) cs cs :=
    List.forall₂_same.mpr (fun x _ => ⟨rfl, Nat.le_refl _⟩)
  have hprefix : (parse d a).map Command.headline <+: delimited.map Command.headline := by
    rw [hdelimited, parse, State.map_headline_scan, State.map_headline_scan, headers_append]
    exact List.prefix_append _ _
  have hdelimiter : classify ['#', '#', '#'] = .delimiter := by decide
  have hsilent : classify [] = .silent := by decide
  rcases scan_without_delimiter (d := d) (splitLines a.toList) hdelimiter hsilent h with
    heq | ⟨before, c, last, tail, hlength, hlast, hx, hy⟩
  · rw [← hdelimited, ← hblank] at heq
    rw [heq] at hprefix ⊢
    exact ⟨hsame blank, fun _ _ => rfl, hprefix⟩
  · rw [← hdelimited] at hx
    rw [← hblank] at hy
    refine ⟨?_, ?_, hprefix⟩
    · rw [hx, hy]
      exact List.rel_append (hsame before) (.cons ⟨rfl, hlast⟩ (hsame tail))
    · intro n hn
      have hset : blank = delimited.set before.length (c.endedAt last) := by simp [hx, hy]
      have hne : before.length ≠ n := fun he => hn (he ▸ hlength)
      rw [hset, List.getElem?_set_ne hne]

theorem parse_without_delimiter_among_notes :
    let d : Defaults := ⟨"p", "eu"⟩
    let a := "PURGE p\nSEND q\n\x7b]\x7d"
    let b := "# a\n###\n\nRECEIVE r"
    let delimited := parse d (a ++ "\n###\n" ++ b)
    let blank := parse d (a ++ "\n\n" ++ b)
    let notes := leadIn (splitLines b.toList)
    notes.length = 3 ∧ (∀ l ∈ notes, isNote l = true) ∧
      delimited.map Command.range = [⟨0, 0⟩, ⟨1, 3⟩, ⟨7, 7⟩] ∧
      blank.map Command.range = [⟨0, 0⟩, ⟨1, 5⟩, ⟨7, 7⟩] ∧
      delimited.get ⟨1, by decide⟩ = (blank.get ⟨1, by decide⟩).endedAt 3 ∧
      delimited[0]? = blank[0]? ∧ delimited[2]? = blank[2]? := by
  intro d a b delimited blank notes
  have hnotes : ∀ l ∈ notes, isNote l = true := by decide
  obtain ⟨hall, hothers, _⟩ := parse_without_delimiter d a b hnotes
  have hlast : (delimited.get ⟨1, by decide⟩).range.last = 3 := by decide
  have hsecond := (hall.get (i := 1) (by decide) (by decide)).1
  rw [hlast] at hsecond
  exact ⟨by decide, hnotes, by decide, by decide, hsecond, hothers 0 (by decide), hothers 2 (by decide)⟩

end QueueScript.Script
