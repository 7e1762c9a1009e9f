import QueueScript.Proofs.Script.Blocks
import QueueScript.Proofs.Text.Lines

namespace QueueScript.Script

open Text (trim splitLines)
open State (after scan blockLength)

def isHeader (line : Line) : Bool := (header? (trim line)).isSome

def gap (lines : List Line) (i : Nat) : Nat := (lines.drop (i + 1)).findIdx isHeader

/-- The line `j` is a delimiter, and no body is open where it stands. -/
def closesAt (d : Defaults) (lines : List Line) (j : Nat) : Bool :=
  lines[j]?.map trim == some ['#', '#', '#'] && !(after d 0 (lines.take j) .idle).bodyOpen

def blockEnd (d : Defaults) (lines : List Line) (i : Nat) : Nat :=
  ((List.range' (i + 1) (gap lines i)).find? (closesAt d lines)).getD (i + gap lines i)

theorem isHeader_iff {line : Line} : isHeader line = true ↔ ∃ k t, classify line = .header k t := by
  simp [isHeader, Option.isSome_iff_exists, classify_eq_header_iff]

theorem isHeader_eq_false {line : Line} (h : ∀ k t, classify line ≠ .header k t) :
    isHeader line = false := by
  rw [Bool.eq_false_iff, Ne, isHeader_iff]
  rintro ⟨k, t, hk⟩
  exact h k t hk

theorem drop_eq_cons {lines : List Line} {j : Nat} {l : Line} (h : lines[j]? = some l) :
    lines.drop j = l :: lines.drop (j + 1) := by
  obtain ⟨hlt, rfl⟩ := List.getElem?_eq_some_iff.mp h
  exact List.drop_eq_getElem_cons hlt

theorem after_take_succ {d : Defaults} {lines ls : List Line} {j : Nat} {l : Line}
    (h : lines.drop j = l :: ls) :
    after d 0 (lines.take (j + 1)) .idle = ((after d 0 (lines.take j) .idle).step d j l).1 := by
  have hj : j < lines.length := by
    rw [← List.drop_eq_nil_iff.not.trans Nat.not_le]
    simp [h]
  have hl : lines[j]? = some l := by rw [← List.head?_drop, h]; rfl
  have hlen : (lines.take j).length = j := List.length_take_of_le (Nat.le_of_lt hj)
  rw [List.take_add_one, hl, Option.toList_some, State.after_concat, hlen, Nat.zero_add]

theorem closesAt_eq {d : Defaults} {lines ls : List Line} {j : Nat} {l : Line}
    (h : lines.drop j = l :: ls) :
    closesAt d lines j = true ↔
      classify l = .delimiter ∧ (after d 0 (lines.take j) .idle).bodyOpen = false := by
  have hl : lines[j]? = some l := by rw [← List.head?_drop, h]; rfl
  simp [closesAt, hl, classify_eq_delimiter_iff]

theorem blockLength_eq (d : Defaults) (lines : List Line) {ls : List Line} {j : Nat}
    (h : lines.drop j = ls)
    (hs : after d 0 (lines.take j) .idle ≠ .idle) :
    j + blockLength d j ls (after d 0 (lines.take j) .idle) - 1 =
      ((List.range' j (ls.findIdx isHeader)).find? (closesAt d lines)).getD
        (j + ls.findIdx isHeader - 1) := by
  induction ls generalizing j with
  | nil => rfl
  | cons l ls ih =>
      have hdrop : lines.drop (j + 1) = ls := by rw [← List.drop_drop, h]; rfl
      have hclose := closesAt_eq (d := d) h
      rcases State.step_cases d j l (after d 0 (lines.take j) .idle) with
        ⟨k, t, hk, _⟩ | ⟨hh, hd, _, hb, _⟩ | ⟨hh, hd, ho, _⟩
      · have hl : isHeader l = true := isHeader_iff.mpr ⟨k, t, hk⟩
        rw [State.blockLength_cons_of_header hk]
        simp [List.findIdx_cons, hl]
      · have hc : closesAt d lines j = true := hclose.mpr ⟨hd, hb⟩
        rw [State.blockLength_cons_of_delimiter hd hb]
        simp [List.findIdx_cons, isHeader_eq_false hh, List.range'_succ, hc]
      · have hc : closesAt d lines j = false := by
          rw [Bool.eq_false_iff, Ne, hclose]
          rintro ⟨hdel, hbody⟩
          simp [hd hdel hs] at hbody
        have hs' : after d 0 (lines.take (j + 1)) .idle ≠ .idle := by
          rw [after_take_succ h, Ne, ← State.opened_eq_none, ho, State.opened_eq_none]
          exact hs
        have hlast := ih hdrop hs'
        rw [after_take_succ h] at hlast
        rw [State.blockLength_cons hh (fun hdel => hd hdel hs)]
        simp only [List.findIdx_cons, isHeader_eq_false hh, List.range'_succ, cond_false,
          List.find?_cons, hc]
        rw [← Nat.add_assoc, Nat.add_right_comm j, hlast, Nat.add_assoc j, Nat.add_comm 1]

theorem after_take_header {d : Defaults} {lines : List Line} {n : Nat} {line : Line} {k : Kind}
    {t : String} (hn : lines[n]? = some line) (hk : classify line = .header k t) :
    after d 0 (lines.take (n + 1)) .idle = .inBlock (.start d k t n) := by
  rw [after_take_succ (drop_eq_cons hn), State.step_of_header hk]

theorem exists_block_of_mem {d : Defaults} {lines : List Line} {c : Command}
    (h : c ∈ scan d 0 lines .idle) :
    ∃ line k t m, lines[c.range.first]? = some line ∧ classify line = .header k t ∧
      c.range.last = c.range.first + m ∧ c.range.last < lines.length ∧
      c.range.last = blockEnd d lines c.range.first ∧
      scan d (c.range.first + 1) ((lines.drop (c.range.first + 1)).take m)
        (.inBlock (.start d k t c.range.first)) = [c] := by
  rcases State.opensAt_of_mem_scan h with ⟨hidle, _⟩ | ⟨n, line, k, t, tail, hn, hk, hscan⟩
  · exact absurd rfl hidle
  · rw [Nat.zero_add] at hscan
    have hafter := after_take_header (d := d) hn hk
    obtain ⟨a, htake, hall, hhead, hlast⟩ := State.scan_of_ne_idle d (n + 1)
      (lines.drop (n + 1)) (s := .inBlock (.start d k t n)) (by simp)
    obtain rfl : a = c := (List.cons.inj (hall.symm.trans hscan)).1
    obtain rfl : a.range.first = n := (Prod.mk.inj (Option.some.inj hhead)).1
    have hend := blockLength_eq d lines rfl (by rw [hafter]; simp)
    rw [hafter, ← hlast] at hend
    have hlen := State.blockLength_le d (a.range.first + 1) (lines.drop (a.range.first + 1))
      (.inBlock (.start d k t a.range.first))
    have hlt := (List.getElem?_eq_some_iff.mp hn).1
    rw [List.length_drop] at hlen
    refine ⟨line, k, t, _, hn, hk, by omega, by omega, ?_, htake⟩
    rw [hend, blockEnd, gap]
    congr 1
    omega

theorem parse_blocks (d : Defaults) (text : String) :
    (parse d text).map (fun c => (c.range.first, c.kind, c.target)) =
        headers 0 (splitLines text.toList) ∧
      (∀ c ∈ parse d text,
        c.range.last = blockEnd d (splitLines text.toList) c.range.first ∧
          c.range.first ≤ c.range.last ∧ c.range.last < (splitLines text.toList).length) ∧
      (parse d text).Pairwise (fun a b => a.range.last < b.range.first) := by
  refine ⟨State.map_headline_scan d 0 _ .idle, ?_, State.pairwise_scan d 0 _ (by simp [State.opened])⟩
  intro c hc
  obtain ⟨_, _, _, m, _, _, hm, hlt, hend, _⟩ := exists_block_of_mem hc
  exact ⟨hend, by omega, hlt⟩

theorem parse_blocks_delimiter_in_body :
    (parse ⟨"p", "eu"⟩ "SEND q\n\x7b\n###\n\nPURGE r\n###\n").map
          (fun c => (c.range.first, c.kind, c.target)) = [(0, .send, "q"), (4, .purge, "r")] ∧
      ((parse ⟨"p", "eu"⟩ "SEND q\n\x7b\n###\n\nPURGE r\n###\n").get ⟨0, by decide⟩).range.last = 3 ∧
      ((parse ⟨"p", "eu"⟩ "SEND q\n\x7b\n###\n\nPURGE r\n###\n").get ⟨1, by decide⟩).range.last = 5 := by
  obtain ⟨hheaders, hends, _⟩ := parse_blocks ⟨"p", "eu"⟩ "SEND q\n\x7b\n###\n\nPURGE r\n###\n"
  exact ⟨hheaders, (hends _ (List.get_mem _ ⟨0, by decide⟩)).1,
    (hends _ (List.get_mem _ ⟨1, by decide⟩)).1⟩

end QueueScript.Script
