import QueueScript.Proofs.Script.Extent
import QueueScript.Proofs.Script.Moved

namespace QueueScript.Script

open Text (splitLines joinLines)
open State (after ended scan)

def startsBlock (text : String) : Bool := (splitLines text.toList).head?.any isHeader

def excerpt (text : String) (r : LineRange) : String :=
  String.ofList (joinLines (((splitLines text.toList).drop r.first).take r.lineCount))

theorem State.scan_header (d : Defaults) (i : Nat) {l : Line} (ls : List Line) (s : State)
    (h : isHeader l = true) :
    scan d i (l :: ls) s = (s.close (i - 1)).toList ++ scan d i (l :: ls) .idle := by
  obtain ⟨k, t, hk⟩ := isHeader_iff.mp h
  simp [State.scan_cons, State.step_of_header hk]

theorem State.scan_two (d : Defaults) {ls ms : List Line}
    (h : ms.head?.any isHeader = true ∨ after d 0 ls .idle = .idle) :
    scan d 0 (ls ++ ms) .idle =
      scan d 0 ls .idle ++ (scan d 0 ms .idle).map (Command.moved (· + ls.length)) := by
  rw [State.scan_append, State.scan_eq d 0 ls, List.append_assoc, ← State.scan_idle_moved,
    Nat.zero_add]
  rcases h with h | h
  · cases ms with
    | nil => simp at h
    | cons l ms => rw [State.scan_header d _ ms _ (by simpa using h)]
  · rw [h]
    rfl

theorem take_drop_eq_cons {lines : List Line} {line : Line} {n : Nat} (m : Nat)
    (h : lines[n]? = some line) :
    (lines.drop n).take (m + 1) = line :: (lines.drop (n + 1)).take m := by
  obtain ⟨hlt, rfl⟩ := List.getElem?_eq_some_iff.mp h
  rw [List.drop_eq_getElem_cons hlt, List.take_succ_cons]

theorem splitLines_excerpt {text : String} {r : LineRange}
    (h : r.first < (splitLines text.toList).length) :
    splitLines (excerpt text r).toList =
      ((splitLines text.toList).drop r.first).take r.lineCount := by
  rw [excerpt, String.toList_ofList]
  refine Text.splitLines_joinLines ?_ ?_
  · rw [← List.length_pos_iff, List.length_take, List.length_drop, LineRange.lineCount]
    omega
  · intro l hl
    exact Text.not_mem_of_mem_splitLines (List.mem_of_mem_drop (List.mem_of_mem_take hl))

theorem map_moved_parse_excerpt {d : Defaults} {text : String} {c : Command}
    (h : c ∈ parse d text) :
    (parse d (excerpt text c.range)).map (Command.moved (· + c.range.first)) = [c] := by
  obtain ⟨line, k, t, m, hline, hk, hlast, hlt, _, hscan⟩ := exists_block_of_mem h
  have hcount : c.range.lineCount = m + 1 := by
    rw [LineRange.lineCount]
    omega
  have hcut : splitLines (excerpt text c.range).toList =
      line :: ((splitLines text.toList).drop (c.range.first + 1)).take m := by
    rw [splitLines_excerpt (by omega), hcount, take_drop_eq_cons m hline]
  rw [parse, hcut, ← State.scan_idle_moved, State.scan_cons, State.step_of_header hk]
  exact hscan

theorem moved_sub_of_map_moved_add {cs : List Command} {c : Command} {n : Nat}
    (h : cs.map (Command.moved (· + n)) = [c]) :
    cs = [c.moved (· - n)] ∧ (c.moved (· - n)).moved (· + n) = c := by
  obtain ⟨a, rfl, rfl⟩ := List.map_eq_singleton_iff.mp h
  have hback : (a.moved (· + n)).moved (· - n) = a := by
    have hid : (fun x => x - n) ∘ (fun x => x + n) = id := by
      funext x
      exact Nat.add_sub_cancel x n
    rw [Command.moved_moved, hid, Command.moved_id]
  rw [hback]
  exact ⟨rfl, rfl⟩

theorem parse_compositional (d : Defaults) :
    (∀ a b : String,
      startsBlock b = true ∨ after d 0 (splitLines a.toList) .idle = .idle →
        parse d (a ++ "\n" ++ b) =
          parse d a ++ (parse d b).map (Command.moved (· + (a.toList.count '\n' + 1)))) ∧
      ∀ (text : String), ∀ c ∈ parse d text,
        parse d (excerpt text c.range) = [c.moved (· - c.range.first)] ∧
          (c.moved (· - c.range.first)).moved (· + c.range.first) = c := by
  constructor
  · intro a b h
    have hlines : splitLines (a ++ "\n" ++ b).toList =
        splitLines a.toList ++ splitLines b.toList := by
      rw [← Text.splitLines_append_feed]
      simp
    rw [parse, hlines, State.scan_two d h, Text.length_splitLines]
    rfl
  · intro text c hc
    exact moved_sub_of_map_moved_add (map_moved_parse_excerpt hc)

theorem parse_compositional_open_body :
    (startsBlock "RECEIVE r\nwait-time: 5" = true ∧
      parse ⟨"p", "eu"⟩ ("SEND q\n\x7b" ++ "\n" ++ "RECEIVE r\nwait-time: 5") =
        parse ⟨"p", "eu"⟩ "SEND q\n\x7b" ++
          (parse ⟨"p", "eu"⟩ "RECEIVE r\nwait-time: 5").map (Command.moved (· + 2))) ∧
      ((parse ⟨"p", "eu"⟩ "SEND q\n\x7b\nPURGE r").map Command.range = [⟨0, 1⟩, ⟨2, 2⟩] ∧
        parse ⟨"p", "eu"⟩ (excerpt "SEND q\n\x7b\nPURGE r" ⟨2, 2⟩) =
          [((parse ⟨"p", "eu"⟩ "SEND q\n\x7b\nPURGE r").get ⟨1, by decide⟩).moved (· - 2)]) := by
  have hstarts : startsBlock "RECEIVE r\nwait-time: 5" = true := by decide
  have hmem : (parse ⟨"p", "eu"⟩ "SEND q\n\x7b\nPURGE r").get ⟨1, by decide⟩ ∈
      parse ⟨"p", "eu"⟩ "SEND q\n\x7b\nPURGE r" := List.get_mem _ _
  exact ⟨⟨hstarts, (parse_compositional ⟨"p", "eu"⟩).1 _ _ (.inl hstarts)⟩, by decide,
    ((parse_compositional ⟨"p", "eu"⟩).2 _ _ hmem).1⟩

end QueueScript.Script
