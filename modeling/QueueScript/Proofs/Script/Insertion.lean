import QueueScript.Proofs.Script.Ending
import QueueScript.Proofs.Script.Moved

namespace QueueScript

def Command.endedAt (last : Nat) (c : Command) : Command :=
  { c with range := ⟨c.range.first, last⟩ }

theorem Command.endedAt_self {c : Command} {last : Nat} (h : c.range.last = last) :
    c.endedAt last = c := by
  subst h
  rfl

namespace Script

open Text (joinLines splitLines trim)
open State (after ended scan)

def insertLine (text : String) (k : Nat) (l : Line) : String :=
  let lines := splitLines text.toList
  String.ofList (joinLines (lines.take k ++ l :: lines.drop k))

def shift (k i : Nat) : Nat := if i < k then i else i + 1

/-- The command with its lines numbered by `f`. A block that no delimiter ends reaches up to the line
before the next header, or before the end of the document, wherever these have gone. -/
def renumbered (d : Defaults) (lines : List Line) (f : Nat → Nat) (c : Command) : Command :=
  (c.moved f).endedAt
    (if closesAt d lines c.range.last then f c.range.last else f (c.range.last + 1) - 1)

/-- The command once another line came in at `k`. A last line right before `k` takes the new line in, unless
it is the delimiter that ends the block. -/
def displaced (d : Defaults) (lines : List Line) (k : Nat) (c : Command) : Command :=
  (c.moved (shift k)).endedAt
    (if k ≤ c.range.last ∨ (c.range.last + 1 = k ∧ closesAt d lines c.range.last = false) then
      c.range.last + 1
    else c.range.last)

variable {d : Defaults} {lines : List Line} {f : Nat → Nat} {i : Nat} {l : Line}

theorem State.close_endedAt (s : State) (m n : Nat) :
    (s.moved f).close n = (s.close m).map (fun c => (c.moved f).endedAt n) := by
  cases s with
  | idle => rfl
  | inBlock a => rfl
  | inBody a b =>
      simp only [State.close, State.moved, Option.map_some, ← Draft.resolve_moved]
      rfl

theorem close_renumbered (d : Defaults) (lines : List Line) (f : Nat → Nat) (i : Nat) :
    ((after d 0 (lines.take i) .idle).moved f).close (f i - 1) =
      ((after d 0 (lines.take i) .idle).close (i - 1)).map (renumbered d lines f) := by
  rw [State.close_endedAt _ (i - 1)]
  refine Option.map_congr ?_
  intro c hc
  obtain ⟨hs, hlast⟩ := State.last_of_close hc
  obtain ⟨j, rfl⟩ : ∃ j, i = j + 1 := by
    refine Nat.exists_eq_succ_of_ne_zero ?_
    rintro rfl
    exact hs rfl
  -- A delimiter on the line before would have left no block open.
  have hopen : closesAt d lines j = false := by
    rw [Bool.eq_false_iff]
    intro hclose
    exact hs (after_of_closesAt hclose)
  rw [Nat.add_sub_cancel] at hlast
  rw [renumbered, hlast, hopen]
  rfl

theorem step_renumbered (f : Nat → Nat) (h : lines[i]? = some l) :
    ((after d 0 (lines.take i) .idle).moved f).step d (f i) l =
      (((after d 0 (lines.take i) .idle).step d i l).1.moved f,
        ((after d 0 (lines.take i) .idle).step d i l).2.map (renumbered d lines f)) := by
  rcases State.step_cases d i l (after d 0 (lines.take i) .idle) with
    ⟨k, t, hk, hstep⟩ | ⟨hh, hd, _, hb, hstep⟩ | ⟨hh, _, _, hnone⟩
  · rw [hstep, State.step_of_header hk, close_renumbered]
    rfl
  · have hclose : closesAt d lines i = true := (closesAt_eq (drop_eq_cons h)).mpr ⟨hd, hb⟩
    rw [State.step_moved_of_ne d _ i hh, hstep]
    refine Prod.ext rfl (Option.map_congr ?_)
    intro c hc
    obtain ⟨_, hlast⟩ := State.last_of_close hc
    rw [renumbered, hlast, hclose, if_pos rfl, Command.endedAt_self]
    rw [← hlast]
    rfl
  · rw [State.step_moved_of_ne d _ i hh, hnone]
    rfl

theorem run_renumbered {xs ls ys : List Line} (hlines : lines = xs ++ (ls ++ ys)) {i : Nat}
    (hf : ∀ j < ls.length, f (xs.length + j) = i + j) :
    after d i ls ((after d 0 xs .idle).moved f) = (after d 0 (xs ++ ls) .idle).moved f ∧
      ended d i ls ((after d 0 xs .idle).moved f) =
        (ended d xs.length ls (after d 0 xs .idle)).map (renumbered d lines f) := by
  induction ls generalizing xs i with
  | nil => exact ⟨by rw [List.append_nil]; rfl, rfl⟩
  | cons l ls ih =>
      have hl : lines[xs.length]? = some l := by simp [hlines]
      have htake : lines.take xs.length = xs := by rw [hlines, List.take_left]
      have hi : f xs.length = i := hf 0 (Nat.succ_pos _)
      have hstep := step_renumbered (d := d) f hl
      rw [htake, hi] at hstep
      have hafter : after d 0 (xs ++ [l]) .idle = ((after d 0 xs .idle).step d xs.length l).1 := by
        rw [State.after_concat, Nat.zero_add]
      have hcut : lines = (xs ++ [l]) ++ (ls ++ ys) := by simp [hlines]
      have hnext : ∀ j < ls.length, f ((xs ++ [l]).length + j) = i + 1 + j := by
        intro j hj
        have hj' := hf (j + 1) (Nat.succ_lt_succ hj)
        rw [List.length_append, List.length_singleton, Nat.add_right_comm, Nat.add_assoc, hj']
        omega
      obtain ⟨hstate, hended⟩ := ih hcut hnext
      rw [hafter, List.append_assoc, List.singleton_append] at hstate
      rw [hafter, List.length_append, List.length_singleton] at hended
      constructor
      · rw [after, hstep]
        exact hstate
      · rw [ended, ended, hstep, hended, List.map_append, Option.toList_map]

theorem scan_renumbered (d : Defaults) (xs ls : List Line) {i : Nat}
    (hf : ∀ j ≤ ls.length, f (xs.length + j) = i + j) :
    scan d i ls ((after d 0 xs .idle).moved f) =
      (scan d xs.length ls (after d 0 xs .idle)).map (renumbered d (xs ++ ls) f) := by
  have hlines : xs ++ ls = xs ++ (ls ++ []) := by rw [List.append_nil]
  obtain ⟨hstate, hended⟩ := run_renumbered (d := d) hlines (fun j hj => hf j (Nat.le_of_lt hj))
  have hclose := close_renumbered d (xs ++ ls) f (xs ++ ls).length
  rw [List.take_length, List.length_append, hf _ (Nat.le_refl _), ← hstate, State.after_append,
    Nat.zero_add] at hclose
  rw [State.scan_eq, State.scan_eq, hended, hclose, List.map_append, Option.toList_map]

theorem renumbered_shift (d : Defaults) (lines : List Line) (k : Nat) :
    renumbered d lines (shift k) = displaced d lines k := by
  funext c
  rw [renumbered, displaced]
  congr 1
  cases closesAt d lines c.range.last with
  | true => grind [shift]
  | false => grind [shift]

theorem classify_eq_silent {l : Line} (h : trim l = [] ∨ (trim l).head? = some '#')
    (hd : trim l ≠ ['#', '#', '#']) : classify l = .silent := by
  have hn : isNote l = true := by simpa [isNote] using h
  rcases isNote_iff.mp hn with hs | hs
  · exact hs
  · exact absurd (classify_eq_delimiter_iff.mp hs) hd

theorem scan_insert (d : Defaults) (xs ls : List Line) (hl : classify l = .silent) :
    scan d 0 (xs ++ l :: ls) .idle =
      (scan d 0 (xs ++ ls) .idle).map (renumbered d (xs ++ ls) (shift xs.length)) := by
  have hbefore : ∀ j < xs.length, shift xs.length (0 + j) = 0 + j := by
    intro j hj
    simp [shift, hj]
  have hbehind : ∀ j ≤ ls.length, shift xs.length (xs.length + j) = xs.length + 1 + j := by
    intro j _
    simp [shift, Nat.add_right_comm]
  have hlines : xs ++ ls = [] ++ (xs ++ ls) := rfl
  -- Nothing is open at the top, so the lines before the new one lead to a state that names no others.
  obtain ⟨hstate, hended⟩ :
      after d 0 xs .idle = (after d 0 xs .idle).moved (shift xs.length) ∧
        ended d 0 xs .idle =
          (ended d 0 xs .idle).map (renumbered d (xs ++ ls) (shift xs.length)) :=
    run_renumbered hlines hbefore
  have hscan := scan_renumbered d xs ls hbehind
  rw [← hstate] at hscan
  rw [State.scan_append, State.scan_append, State.scan_cons, State.step_of_silent hl, Nat.zero_add,
    Option.toList_none, List.nil_append, List.map_append, hscan, ← hended]

theorem splitLines_insertLine (text : String) (k : Nat) (hfeed : '\n' ∉ l) :
    splitLines (insertLine text k l).toList =
      (splitLines text.toList).take k ++ l :: (splitLines text.toList).drop k := by
  rw [insertLine, String.toList_ofList]
  refine Text.splitLines_joinLines (by simp) ?_
  intro m hm
  rcases List.mem_append.mp hm with hm | hm
  · exact Text.not_mem_of_mem_splitLines (List.mem_of_mem_take hm)
  · rcases List.mem_cons.mp hm with rfl | hm
    · exact hfeed
    · exact Text.not_mem_of_mem_splitLines (List.mem_of_mem_drop hm)

theorem parse_insertLine (d : Defaults) (text : String) {k : Nat} {l : Line}
    (hk : k ≤ (splitLines text.toList).length) (hfeed : '\n' ∉ l)
    (hl : trim l = [] ∨ (trim l).head? = some '#') (hd : trim l ≠ ['#', '#', '#']) :
    parse d (insertLine text k l) =
      (parse d text).map (displaced d (splitLines text.toList) k) := by
  have hscan := scan_insert d ((splitLines text.toList).take k) ((splitLines text.toList).drop k)
    (classify_eq_silent hl hd)
  rw [List.take_append_drop, List.length_take_of_le hk] at hscan
  rw [parse, splitLines_insertLine text k hfeed, hscan, renumbered_shift, parse]

theorem parse_insertLine_before_header_and_behind_delimiter :
    let d : Defaults := ⟨"p", "eu"⟩
    let text := "SEND q\n\x7b\"a\":\n]\x7d\nPURGE r\n###\nPURGE s"
    let put := displaced d (splitLines text.toList)
    parse d (insertLine text 2 "  # a".toList) = (parse d text).map (put 2) ∧
      parse d (insertLine text 3 "".toList) = (parse d text).map (put 3) ∧
      parse d (insertLine text 5 "####".toList) = (parse d text).map (put 5) ∧
      (parse d text).map Command.range = [⟨0, 2⟩, ⟨3, 4⟩, ⟨5, 5⟩] ∧
      ((parse d text).map (put 2)).map Command.bodyRange = [some ⟨1, 3⟩, none, none] ∧
      ((parse d text).map (put 3)).map Command.range = [⟨0, 3⟩, ⟨4, 5⟩, ⟨6, 6⟩] ∧
      ((parse d text).map (put 5)).map Command.range = [⟨0, 2⟩, ⟨3, 4⟩, ⟨6, 6⟩] := by
  intro d text put
  refine ⟨?_, ?_, ?_, by decide, by decide, by decide, by decide⟩
  · exact parse_insertLine d text (by decide) (by decide) (by decide) (by decide)
  · exact parse_insertLine d text (by decide) (by decide) (by decide) (by decide)
  · exact parse_insertLine d text (by decide) (by decide) (by decide) (by decide)

end Script

end QueueScript
