import Mathlib.Data.List.Forall2
import QueueScript.Proofs.Script.Body
/-!
Indentation and line endings do not matter. What a line is goes by the trimmed line, and a body is read
from lines as they stand, so the padding of its lines reaches the JSON reader and has to be of no account
there as well.
-/

namespace QueueScript

def Warning.unworded : Warning → Warning
  | .malformedBody line _ => .malformedBody line ""
  | .invalidNumber key value line => .invalidNumber key value line

def Command.unworded (c : Command) : Command :=
  { c with warnings := c.warnings.map Warning.unworded }

namespace Script

open Json (Spaces Respaced)
open Text (isBlank joinLines splitLines trim)

def Padding (w : List Char) : Prop := ∀ c ∈ w, c = ' ' ∨ c = '\t' ∨ c = '\r'

instance : DecidablePred Padding := fun w =>
  List.decidableBAll (fun c => c = ' ' ∨ c = '\t' ∨ c = '\r') w

def Padded (l m : Line) : Prop := ∃ u w, Padding u ∧ Padding w ∧ m = u ++ l ++ w

theorem Padding.spaces {w : List Char} (h : Padding w) : Spaces w := by
  intro c hc
  rcases h c hc with rfl | rfl | rfl <;> rfl

theorem Padding.isBlank {w : List Char} (h : Padding w) : ∀ c ∈ w, isBlank c = true := by
  intro c hc
  exact isBlank_of_isSpace (h.spaces c hc)

namespace Padded

variable {l m : Line}

theorem trim_eq (h : Padded l m) : trim m = trim l := by
  obtain ⟨u, w, hu, hw, rfl⟩ := h
  exact Text.trim_append_of_blank hu.isBlank hw.isBlank l

theorem classify_eq (h : Padded l m) : classify m = classify l := by
  rw [classify, h.trim_eq, classify]

theorem braceBalance_eq (h : Padded l m) :
    OpenBody.braceBalance m = OpenBody.braceBalance l := by
  obtain ⟨u, w, hu, hw, rfl⟩ := h
  rw [OpenBody.braceBalance_append, OpenBody.braceBalance_append, braceBalance_of_spaces hu.spaces,
    braceBalance_of_spaces hw.spaces, Int.zero_add, Int.add_zero]

theorem respaced_joinLines {ls ms : List Line} (hfeed : ∀ l ∈ ls, '\n' ∉ l)
    (h : List.Forall₂ Padded ls ms) :
    ∃ u t, joinLines ms = u ++ t ∧ Spaces u ∧ Respaced (joinLines ls) t := by
  induction h with
  | nil => exact ⟨[], [], rfl, .nil, .done .nil⟩
  | @cons l m ls ms hlm h ih =>
      obtain ⟨u, w, hu, hw, rfl⟩ := hlm
      obtain ⟨hl, hls⟩ := List.forall_mem_cons.mp hfeed
      obtain ⟨v, t, hjoin, hv, ht⟩ := ih hls
      -- Only the padding `u` of the first line is left to stand before the text; the padding `w` behind a
      -- line and `v` before the next one meet at the line feed between them.
      cases h with
      | nil =>
          have hend : Respaced (l ++ []) (l ++ w) := .append hl (.done hw.spaces)
          refine ⟨u, l ++ w, by simp [joinLines], hu.spaces, ?_⟩
          rwa [List.append_nil] at hend
      | cons _ _ =>
          refine ⟨u, l ++ (w ++ '\n' :: (v ++ t)), ?_, hu.spaces, ?_⟩
          · rw [joinLines, hjoin]
            · simp
            · simp
          · exact (Respaced.feed hw.spaces hv ht).append hl

end Padded

structure OpenBody.Padded (b b' : OpenBody) : Prop where
  first : b'.first = b.first
  last : b'.last = b.last
  depth : b'.depth = b.depth
  feedless : ∀ l ∈ b.lines, '\n' ∉ l
  lines : List.Forall₂ Script.Padded b.lines b'.lines

namespace OpenBody.Padded

variable {b b' : OpenBody} {l m : Line}

theorem start (i : Nat) (hl : '\n' ∉ l) (h : Script.Padded l m) :
    (OpenBody.start i l).Padded (.start i m) where
  first := rfl
  last := rfl
  depth := h.braceBalance_eq
  feedless := by simpa [OpenBody.start] using hl
  lines := .cons h .nil

theorem push (hb : b.Padded b') (i : Nat) (hl : '\n' ∉ l) (h : Script.Padded l m) :
    (b.push i l).Padded (b'.push i m) where
  first := hb.first
  last := rfl
  depth := by simp only [OpenBody.push, hb.depth, h.braceBalance_eq]
  feedless := List.forall_mem_append.mpr ⟨hb.feedless, by simpa using hl⟩
  lines := List.rel_append hb.lines (.cons h .nil)

theorem isClosed_eq (hb : b.Padded b') : b'.isClosed = b.isClosed := by
  rw [isClosed, hb.depth, isClosed]

theorem parse_text_iff (hb : b.Padded b') (v : Json) :
    Json.parse b.text = .ok v ↔ Json.parse b'.text = .ok v := by
  obtain ⟨u, t, hjoin, hu, ht⟩ := Script.Padded.respaced_joinLines hb.feedless hb.lines
  rw [text, text, hjoin, Json.parse_append_spaces hu]
  exact Json.parse_respaced ht v

end OpenBody.Padded

def Draft.unworded (a : Draft) : Draft := { a with warnings := a.warnings.map Warning.unworded }

variable {a a' : Draft} {b b' : OpenBody}

theorem Draft.unworded_set (a : Draft) (p : Parameter) :
    (a.set p).unworded = a.unworded.set p := by
  obtain ⟨key, value, line⟩ := p
  cases key <;> simp only [Draft.set, Draft.setCount]
  case profile => rfl
  case region => rfl
  all_goals
    cases Text.count? value.toList with
    | none => simp [Draft.unworded, Draft.warn, Warning.unworded]
    | some n => rfl

theorem Draft.unworded_resolve_of_ok (a : Draft) {v : Json} (h : Json.parse b.text = .ok v) :
    (a.resolve b).unworded =
      { a.unworded with body := some v, bodyRange := some ⟨b.first, b.last⟩ } := by
  rw [Draft.resolve_of_parse a h]
  rfl

theorem Draft.unworded_resolve_of_error (a : Draft) {e : Json.ReadError}
    (h : Json.parse b.text = .error e) :
    (a.resolve b).unworded =
      { a.unworded with body := none, bodyRange := some ⟨b.first, b.last⟩ }.warn
        (.malformedBody b.first "") := by
  rw [Draft.resolve_of_error a h]
  simp [Draft.unworded, Draft.warn, Warning.unworded]

theorem Draft.unworded_resolve (ha : a.unworded = a'.unworded) (hb : b.Padded b') :
    (a.resolve b).unworded = (a'.resolve b').unworded := by
  cases hp : Json.parse b.text with
  | ok v =>
      have hp' : Json.parse b'.text = .ok v := (hb.parse_text_iff v).mp hp
      rw [unworded_resolve_of_ok a hp, unworded_resolve_of_ok a' hp', ha, hb.first, hb.last]
  | error e =>
      cases hp' : Json.parse b'.text with
      | ok v =>
          rw [(hb.parse_text_iff v).mpr hp'] at hp
          cases hp
      | error e' =>
          rw [unworded_resolve_of_error a hp, unworded_resolve_of_error a' hp', ha, hb.first, hb.last]

theorem Draft.kind_of_unworded (h : a.unworded = a'.unworded) : a'.kind = a.kind := by
  change a'.unworded.kind = a.unworded.kind
  rw [h]

inductive State.Padded : State → State → Prop
  | idle : Padded .idle .idle
  | inBlock {a a' : Draft} : a.unworded = a'.unworded → Padded (.inBlock a) (.inBlock a')
  | inBody {a a' : Draft} {b b' : OpenBody} : a.unworded = a'.unworded → b.Padded b' →
      Padded (.inBody a b) (.inBody a' b')

namespace State.Padded

variable {s t : State} {l m : Line}

theorem close_eq (h : s.Padded t) (last : Nat) :
    (s.close last).map Command.unworded = (t.close last).map Command.unworded := by
  have hfinish : ∀ a, (Draft.finish a last).unworded = a.unworded.finish last := fun _ => rfl
  cases h with
  | idle => rfl
  | inBlock ha => simp only [State.close, Option.map_some, hfinish, ha]
  | inBody ha hb => simp only [State.close, Option.map_some, hfinish, Draft.unworded_resolve ha hb]

theorem advanceBody (ha : a.unworded = a'.unworded) (hb : b.Padded b') :
    (State.advanceBody a b).Padded (State.advanceBody a' b') := by
  simp only [State.advanceBody, hb.isClosed_eq]
  split
  · exact .inBlock (Draft.unworded_resolve ha hb)
  · exact .inBody ha hb

theorem inBlockLine (ha : a.unworded = a'.unworded) (i : Nat) (hfeed : '\n' ∉ l)
    (h : Script.Padded l m) :
    (State.inBlockLine a i l).Padded (State.inBlockLine a' i m) := by
  simp only [State.inBlockLine, h.trim_eq, Draft.kind_of_unworded ha]
  cases (parameter? (trim l)).filter (fun p => p.1.appliesTo a.kind) with
  | some p =>
      refine .inBlock ?_
      rw [Draft.unworded_set, Draft.unworded_set, ha]
  | none =>
      simp only
      split
      · exact advanceBody ha (.start i hfeed h)
      · exact .inBlock ha

theorem contentLine (hs : s.Padded t) (i : Nat) (hfeed : '\n' ∉ l) (h : Script.Padded l m) :
    (s.contentLine i l).Padded (t.contentLine i m) := by
  cases hs with
  | idle => exact .idle
  | inBlock ha => exact inBlockLine ha i hfeed h
  | inBody ha hb => exact advanceBody ha (hb.push i hfeed h)

theorem step (d : Defaults) (hs : s.Padded t) (i : Nat) (hfeed : '\n' ∉ l) (h : Script.Padded l m) :
    (s.step d i l).1.Padded (t.step d i m).1 ∧
      (s.step d i l).2.map Command.unworded = (t.step d i m).2.map Command.unworded := by
  have hm := h.classify_eq
  cases hl : classify l with
  | silent =>
      rw [step_of_silent hl, step_of_silent (hm.trans hl)]
      exact ⟨hs, rfl⟩
  | content =>
      rw [step_of_content hl, step_of_content (hm.trans hl)]
      exact ⟨hs.contentLine i hfeed h, rfl⟩
  | header k target =>
      rw [step_of_header hl, step_of_header (hm.trans hl)]
      exact ⟨.inBlock rfl, hs.close_eq (i - 1)⟩
  | delimiter =>
      have hclose := hs.close_eq i
      simp only [State.step, hm, hl]
      cases hs with
      | idle => exact ⟨.idle, rfl⟩
      | inBlock _ => exact ⟨.idle, hclose⟩
      | inBody ha hb => exact ⟨.inBody ha hb, rfl⟩

theorem scan (d : Defaults) (hs : s.Padded t) (i : Nat) {ls ms : List Line}
    (hfeed : ∀ l ∈ ls, '\n' ∉ l) (h : List.Forall₂ Script.Padded ls ms) :
    (State.scan d i ls s).map Command.unworded = (State.scan d i ms t).map Command.unworded := by
  induction h generalizing i s t with
  | nil => rw [scan_nil, scan_nil, ← Option.toList_map, ← Option.toList_map, hs.close_eq]
  | cons h _ ih =>
      obtain ⟨hl, hls⟩ := List.forall_mem_cons.mp hfeed
      obtain ⟨hstate, hended⟩ := hs.step d i hl h
      rw [scan_cons, scan_cons, List.map_append, List.map_append, ← Option.toList_map,
        ← Option.toList_map, hended, ih hstate (i + 1) hls]

end State.Padded

def carriageReturns (s : List Char) : List Char :=
  s.flatMap (fun c => if c = '\n' then ['\r', '\n'] else [c])

theorem splitLines_carriageReturns (s : List Char) :
    List.Forall₂ (fun l m => ∃ w, Padding w ∧ m = l ++ w) (splitLines s)
      (splitLines (carriageReturns s)) := by
  induction s with
  | nil => exact .cons ⟨[], by decide, rfl⟩ .nil
  | cons c s ih =>
      by_cases hc : c = '\n'
      · have hcut : carriageReturns (c :: s) = '\r' :: '\n' :: carriageReturns s := by
          simp [carriageReturns, hc]
        have hs : splitLines ('\n' :: s) = [] :: splitLines s := by simp [splitLines]
        have ht : splitLines ('\r' :: '\n' :: carriageReturns s) =
            ['\r'] :: splitLines (carriageReturns s) := by simp [splitLines]
        rw [hcut, hc, hs, ht]
        exact .cons ⟨['\r'], by decide, rfl⟩ ih
      · have hcut : carriageReturns (c :: s) = c :: carriageReturns s := by
          simp [carriageReturns, hc]
        obtain ⟨l, ls, hl, hcl⟩ := Text.splitLines_cons hc s
        obtain ⟨m, ms, hm, hcm⟩ := Text.splitLines_cons hc (carriageReturns s)
        rw [hl, hm] at ih
        rw [hcut, hcl, hcm]
        obtain ⟨⟨w, hw, rfl⟩, htail⟩ := List.forall₂_cons.mp ih
        exact .cons ⟨w, hw, rfl⟩ htail

theorem parse_padded (d : Defaults) (text : String) :
    (∀ padded : String,
        List.Forall₂ Padded (splitLines text.toList) (splitLines padded.toList) →
        (parse d padded).map Command.unworded = (parse d text).map Command.unworded) ∧
      (parse d (String.ofList (carriageReturns text.toList))).map Command.unworded =
        (parse d text).map Command.unworded := by
  have hlines : ∀ ms, List.Forall₂ Padded (splitLines text.toList) ms →
      (State.scan d 0 ms .idle).map Command.unworded = (parse d text).map Command.unworded := by
    intro ms h
    exact (State.Padded.scan d .idle 0 (fun _ hl => Text.not_mem_of_mem_splitLines hl) h).symm
  refine ⟨fun padded h => hlines _ h, ?_⟩
  rw [parse, String.toList_ofList]
  refine hlines _ ((splitLines_carriageReturns text.toList).imp ?_)
  rintro l m ⟨w, hw, rfl⟩
  exact ⟨[], w, by decide, hw, rfl⟩

theorem parse_padded_spread_and_malformed :
    let d : Defaults := ⟨"p", "eu"⟩
    let text := "SEND q\n\x7b\"k\":\n1\x7d\nSEND r\n\x7b]\x7d"
    let padded := "\tSEND q\r\n  \x7b\"k\":\t\r\n\r1\x7d \nSEND r\r\n\t\x7b]\x7d"
    List.Forall₂ Padded (splitLines text.toList) (splitLines padded.toList) ∧
      (parse d padded).map Command.unworded = (parse d text).map Command.unworded ∧
      (parse d padded).map Command.bodyRange = [some ⟨1, 2⟩, some ⟨4, 4⟩] ∧
      (parse d padded).map Command.warnings ≠ (parse d text).map Command.warnings := by
  intro d text padded
  have htext : splitLines text.toList =
      ["SEND q", "\x7b\"k\":", "1\x7d", "SEND r", "\x7b]\x7d"].map String.toList := by decide
  have hpadded : splitLines padded.toList =
      ["\tSEND q\r", "  \x7b\"k\":\t\r", "\r1\x7d ", "SEND r\r", "\t\x7b]\x7d"].map String.toList := by
    decide
  have h : List.Forall₂ Padded (splitLines text.toList) (splitLines padded.toList) := by
    rw [htext, hpadded]
    refine .cons ⟨['\t'], ['\r'], by decide, by decide, rfl⟩ ?_
    refine .cons ⟨[' ', ' '], ['\t', '\r'], by decide, by decide, rfl⟩ ?_
    refine .cons ⟨['\r'], [' '], by decide, by decide, rfl⟩ ?_
    refine .cons ⟨[], ['\r'], by decide, by decide, rfl⟩ ?_
    exact .cons ⟨['\t'], [], by decide, by decide, rfl⟩ .nil
  exact ⟨h, (parse_padded d text).1 padded h, by decide, by decide⟩

end Script

end QueueScript
