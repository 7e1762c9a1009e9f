import QueueScript.Proofs.Script.Ending
import QueueScript.Proofs.Script.Reread
import QueueScript.Proofs.Script.Setting

namespace QueueScript.Script

open OpenBody (braceBalance)
open State (advanceBody)
open Text (trim splitLines joinLines)

def textLines (lines : List Line) (r : LineRange) : List Line :=
  ((lines.drop r.first).take r.lineCount).filter (fun l => !isNote l)

/-- One body stands on the lines of the range: it starts with a brace, and its braces do not balance
before its last line. -/
structure Spans (lines : List Line) (r : LineRange) : Prop where
  opens : ∃ l, lines[r.first]? = some l ∧ (trim l).head? = some '{'
  ordered : r.first ≤ r.last
  unbalanced : ∀ ms ns, textLines lines r = ms ++ ns → ms ≠ [] → ns ≠ [] →
    0 < braceBalance ms.flatten

def Resolves (lines : List Line) (r : LineRange) (body : Option Json) (warnings : List Warning) :
    Prop :=
  match Json.parse (joinLines (textLines lines r)) with
  | .ok v => body = some v ∧ (∃ ms, v = .object ms) ∧
      ∀ message, .malformedBody r.first message ∉ warnings
  | .error e => body = none ∧
      (warnings.filter Warning.isMalformed).getLast? = some (.malformedBody r.first e.message)

variable {lines : List Line} {a : Draft} {b : OpenBody} {j : Nat} {l : Line}

theorem textLines_singleton (hl : lines[j]? = some l) (hn : isNote l = false) :
    textLines lines ⟨j, j⟩ = [l] := by
  simp [textLines, LineRange.lineCount, drop_eq_cons hl, hn]

theorem textLines_append {first last : Nat} (hfirst : first ≤ last) (hlast : last < j) :
    textLines lines ⟨first, j⟩ = textLines lines ⟨first, last⟩ ++ textLines lines ⟨last + 1, j⟩ := by
  have hcount : LineRange.lineCount ⟨first, j⟩ =
      LineRange.lineCount ⟨first, last⟩ + LineRange.lineCount ⟨last + 1, j⟩ := by
    simp only [LineRange.lineCount]
    omega
  have hdrop : first + LineRange.lineCount ⟨first, last⟩ = last + 1 := by
    simp only [LineRange.lineCount]
    omega
  simp only [textLines]
  rw [hcount, List.take_add, List.drop_drop, hdrop, List.filter_append]

theorem textLines_eq_nil {r : LineRange} (h : r.first ≤ r.last)
    (hnotes : ∀ i m, r.first ≤ i → i ≤ r.last → lines[i]? = some m → isNote m = true) :
    textLines lines r = [] := by
  rw [textLines, List.filter_eq_nil_iff]
  intro m hm
  obtain ⟨i, hi⟩ := List.mem_iff_getElem?.mp hm
  rw [List.getElem?_take, LineRange.lineCount] at hi
  split at hi
  · rw [List.getElem?_drop] at hi
    simp [hnotes _ m (by omega) (by omega) hi]
  · cases hi

theorem textLines_concat {first last : Nat} (hfirst : first ≤ last) (hlast : last < j)
    (hl : lines[j]? = some l) (hn : isNote l = false)
    (hnotes : ∀ i m, last < i → i < j → lines[i]? = some m → isNote m = true) :
    textLines lines ⟨first, j⟩ = textLines lines ⟨first, last⟩ ++ [l] := by
  rw [textLines_append hfirst hlast]
  rcases Nat.eq_or_lt_of_le hlast with rfl | hgap
  · rw [textLines_singleton hl hn]
  · have hnil : textLines lines ⟨last + 1, j - 1⟩ = [] := by
      refine textLines_eq_nil (by simp only; omega) ?_
      intro i m hfirst hi
      exact hnotes i m (by simp only at hfirst; omega) (by simp only at hi; omega)
    have hcut : textLines lines ⟨last + 1, j⟩ =
        textLines lines ⟨last + 1, j - 1⟩ ++ textLines lines ⟨j - 1 + 1, j⟩ :=
      textLines_append (by omega) (by omega)
    rw [hcut, hnil, Nat.sub_add_cancel (Nat.one_le_of_lt hlast), textLines_singleton hl hn,
      List.nil_append]

theorem Resolves.of_filter {r : LineRange} {body : Option Json} {ws vs : List Warning}
    (h : Resolves lines r body ws)
    (hw : vs.filter Warning.isMalformed = ws.filter Warning.isMalformed) :
    Resolves lines r body vs := by
  rw [Resolves] at h ⊢
  split at h
  · obtain ⟨hbody, hobject, hnone⟩ := h
    refine ⟨hbody, hobject, ?_⟩
    intro message hm
    have hmem : .malformedBody r.first message ∈ vs.filter Warning.isMalformed :=
      List.mem_filter.mpr ⟨hm, rfl⟩
    rw [hw] at hmem
    exact hnone message (List.mem_filter.mp hmem).1
  · rw [hw]
    exact h

structure OpenBody.Stands (lines : List Line) (j : Nat) (b : OpenBody) : Prop where
  spans : Spans lines ⟨b.first, b.last⟩
  before : b.last < j
  lines_eq : b.lines = textLines lines ⟨b.first, b.last⟩
  depth_eq : b.depth = braceBalance b.lines.flatten
  braced : b.Braced
  notes : ∀ i m, b.last < i → i < j → lines[i]? = some m → isNote m = true

namespace OpenBody.Stands

theorem start (hl : lines[j]? = some l) (hn : isNote l = false) (hb : (trim l).head? = some '{') :
    (OpenBody.start j l).Stands lines (j + 1) where
  spans := by
    refine ⟨⟨l, hl, hb⟩, Nat.le_refl j, ?_⟩
    intro ms ns hcut hms hns
    have hline : textLines lines ⟨j, j⟩ = ms ++ ns := hcut
    rw [textLines_singleton hl hn] at hline
    rcases List.append_eq_singleton_iff.mp hline.symm with ⟨rfl, _⟩ | ⟨_, rfl⟩
    · exact absurd rfl hms
    · exact absurd rfl hns
  before := Nat.lt_succ_self j
  lines_eq := (textLines_singleton hl hn).symm
  depth_eq := by simp [OpenBody.start]
  braced := braced_start hb
  notes i m hi hj := by
    have hi : j < i := hi
    omega

theorem push (h : b.Stands lines j) (hd : 0 < b.depth) (hl : lines[j]? = some l)
    (hn : isNote l = false) : (b.push j l).Stands lines (j + 1) where
  spans := by
    refine ⟨h.spans.opens, Nat.le_trans h.spans.ordered (Nat.le_of_lt h.before), ?_⟩
    intro ms ns hcut hms hns
    have hlines := textLines_concat h.spans.ordered h.before hl hn h.notes
    obtain ⟨ns, x, rfl⟩ : ∃ ys y, ns = ys ++ [y] :=
      ⟨_, _, (List.dropLast_concat_getLast hns).symm⟩
    have hcut : textLines lines ⟨b.first, b.last⟩ = ms ++ ns := by
      have he : textLines lines ⟨b.first, b.last⟩ ++ [l] = (ms ++ ns) ++ [x] := by
        rw [← hlines, List.append_assoc]
        exact hcut
      exact (List.append_inj' he rfl).1
    -- a part that ends before the new line ends within the body as it was, or with it
    by_cases hne : ns = []
    · rw [hne, List.append_nil, ← h.lines_eq] at hcut
      rw [← hcut, ← h.depth_eq]
      exact hd
    · exact h.spans.unbalanced ms ns hcut hms hne
  before := Nat.lt_succ_self j
  lines_eq := by
    have hlines := textLines_concat h.spans.ordered h.before hl hn h.notes
    rw [← h.lines_eq] at hlines
    exact hlines.symm
  depth_eq := by
    simp only [OpenBody.push, List.flatten_append, braceBalance_append, ← h.depth_eq]
    simp
  braced := h.braced.push j l
  notes i m hi hj := by
    have hi : j < i := hi
    omega

theorem pass (h : b.Stands lines j) (hl : lines[j]? = some l) (hn : isNote l = true) :
    b.Stands lines (j + 1) := by
  refine { h with before := Nat.lt_succ_of_lt h.before, notes := ?_ }
  intro i m hi hj hm
  rcases Nat.eq_or_lt_of_le (Nat.le_of_lt_succ hj) with rfl | hj
  · obtain rfl : l = m := Option.some.inj (hl.symm.trans hm)
    exact hn
  · exact h.notes i m hi hj hm

end OpenBody.Stands

namespace Draft

def bodyEnd (a : Draft) : Nat := a.bodyRange.elim a.first LineRange.last

structure Bodied (lines : List Line) (j : Nat) (a : Draft) : Prop where
  absent : a.bodyRange = none → a.body = none ∧ a.warnings.filter Warning.isMalformed = []
  present : ∀ r, a.bodyRange = some r →
    a.kind = .send ∧ Spans lines r ∧ Resolves lines r a.body a.warnings
  latest : a.kind = .send → ∀ i m, a.bodyEnd < i → i < j → lines[i]? = some m →
    (trim m).head? ≠ some '{'

theorem Bodied.pass (h : a.Bodied lines j) (hl : lines[j]? = some l)
    (hb : a.kind = .send → (trim l).head? ≠ some '{') : a.Bodied lines (j + 1) := by
  refine { h with latest := ?_ }
  intro hk i m hi hj hm
  rcases Nat.eq_or_lt_of_le (Nat.le_of_lt_succ hj) with rfl | hj
  · obtain rfl : l = m := Option.some.inj (hl.symm.trans hm)
    exact hb hk
  · exact h.latest hk i m hi hj hm

theorem Bodied.set (h : a.Bodied lines j) (p : Parameter) : (a.set p).Bodied lines j := by
  obtain ⟨hkind, hfirst, hrange⟩ := a.frame_set p
  have hwarnings := a.malformed_set p
  constructor
  · rw [hrange, hwarnings, body_set]
    exact h.absent
  · intro r hr
    rw [hrange] at hr
    obtain ⟨hk, hspans, hresolves⟩ := h.present r hr
    rw [hkind, body_set]
    exact ⟨hk, hspans, hresolves.of_filter hwarnings⟩
  · rw [hkind, bodyEnd, hrange, hfirst]
    exact h.latest

theorem bodied_resolve (hk : a.kind = .send) (hb : b.Stands lines j)
    (hw : ∀ w ∈ a.warnings, w.line < b.first) : (a.resolve b).Bodied lines j := by
  have htext : joinLines (textLines lines ⟨b.first, b.last⟩) = b.text := by
    rw [← hb.lines_eq]
    rfl
  have hlatest : ∀ i m, b.last < i → i < j → lines[i]? = some m → (trim m).head? ≠ some '{' :=
    fun i m hi hj hm => head?_trim_of_isNote (hb.notes i m hi hj hm)
  have hresolves : Resolves lines ⟨b.first, b.last⟩ (a.resolve b).body (a.resolve b).warnings := by
    rw [Resolves, htext]
    cases hv : Json.parse b.text with
    | ok v =>
        rw [resolve_of_parse a hv]
        refine ⟨rfl, object_of_parse hv hb.braced, ?_⟩
        intro message hm
        exact absurd (hw _ hm) (Nat.lt_irrefl _)
    | error e =>
        rw [resolve_of_error a hv]
        simp [warn, Warning.isMalformed]
  obtain ⟨hkind, _, hrange⟩ := a.frame_resolve b
  constructor
  · intro hnone
    rw [hrange] at hnone
    cases hnone
  · intro r hr
    rw [hrange] at hr
    obtain rfl := Option.some.inj hr
    exact ⟨hkind.trans hk, hb.spans, hresolves⟩
  · intro _
    rw [bodyEnd, hrange]
    exact hlatest

end Draft

namespace State

def Bodied (lines : List Line) (j : Nat) : State → Prop
  | .idle => True
  | .inBlock a => a.Bodied lines j ∧
      ∀ r, a.bodyRange = some r → braceBalance (textLines lines r).flatten ≤ 0
  | .inBody a b => a.kind = .send ∧ (∀ w ∈ a.warnings, w.line < b.first) ∧
      b.Stands lines j ∧ 0 < b.depth

theorem bodied_advanceBody (hk : a.kind = .send) (hw : ∀ w ∈ a.warnings, w.line < b.first)
    (hb : b.Stands lines j) : (advanceBody a b).Bodied lines j := by
  rw [advanceBody]
  split
  · rename_i hclosed
    refine ⟨Draft.bodied_resolve hk hb hw, ?_⟩
    intro r hr
    rw [(a.frame_resolve b).2.2] at hr
    obtain rfl := Option.some.inj hr
    rw [← hb.lines_eq, ← hb.depth_eq]
    simpa [OpenBody.isClosed] using hclosed
  · rename_i hopen
    refine ⟨hk, hw, hb, ?_⟩
    simpa [OpenBody.isClosed] using hopen

theorem bodied_reading (d : Defaults) (lines : List Line) :
    Reading d lines (fun j s => s.Before j ∧ s.Bodied lines j) where
  idle j := ⟨trivial, trivial⟩
  start j k t := by
    refine ⟨(before_invariant d).start j k t, ⟨?_, ?_, ?_⟩, ?_⟩
    · intro _
      exact ⟨rfl, rfl⟩
    · intro r hr
      cases hr
    · intro _ i m hi hj
      have hi : j < i := hi
      omega
    · intro r hr
      cases hr
  content j l s hl hc h := by
    obtain ⟨hbefore, h⟩ := h
    have hn := isNote_of_content hc
    refine ⟨(before_invariant d).content j l s hbefore, ?_⟩
    cases s with
    | idle => trivial
    | inBody a b =>
        obtain ⟨hk, hw, hb, hd⟩ := h
        exact bodied_advanceBody hk hw (hb.push hd hl hn)
    | inBlock a =>
        obtain ⟨ha, hclosed⟩ := h
        simp only [contentLine, inBlockLine]
        split
        · rename_i key value hp
          obtain ⟨hp, _⟩ := Option.filter_eq_some_iff.mp hp
          have hbrace : (trim l).head? ≠ some '{' := by
            intro hb
            rw [parameter?_of_brace hb] at hp
            cases hp
          refine ⟨(ha.pass hl (fun _ => hbrace)).set _, ?_⟩
          rw [(a.frame_set _).2.2]
          exact hclosed
        · split
          · rename_i hbrace
            exact bodied_advanceBody hbrace.1 (fun w hw => (hbefore.warnings w hw).2)
              (.start hl hn hbrace.2)
          · rename_i hbrace
            exact ⟨ha.pass hl (fun hk hb => hbrace ⟨hk, hb⟩), hclosed⟩
  pass j l s hl hn h := by
    obtain ⟨hbefore, h⟩ := h
    refine ⟨(before_invariant d).pass j s hbefore, ?_⟩
    cases s with
    | idle => trivial
    | inBlock a => exact ⟨h.1.pass hl (fun _ => head?_trim_of_isNote hn), h.2⟩
    | inBody a b => exact ⟨h.1, h.2.1, h.2.2.1.pass hl hn, h.2.2.2⟩

end State

/-- The braces of the body on the range were still open where the block ended: nothing follows but
notes, and no delimiter ended the block. -/
structure Unclosed (d : Defaults) (lines : List Line) (c : Command) (r : LineRange) : Prop where
  notes : ∀ i l, r.last < i → i ≤ c.range.last → lines[i]? = some l → isNote l = true
  undelimited : closesAt d lines c.range.last = false
  edge : edgeAfter lines c.range.last = true

theorem exists_bodied_of_mem_parse {d : Defaults} {text : String} {c : Command}
    (h : c ∈ parse d text) :
    ∃ a : Draft, a.Bodied (splitLines text.toList) (c.range.last + 1) ∧
      a.finish c.range.last = c ∧
      ∀ r, a.bodyRange = some r →
        braceBalance (textLines (splitLines text.toList) r).flatten ≤ 0 ∨
          Unclosed d (splitLines text.toList) c r := by
  obtain ⟨s, hends, _, hbodied⟩ := (State.bodied_reading d _).exists_ends h
  have hclose := hends.close
  cases s with
  | idle => cases hclose
  | inBlock a =>
      obtain ⟨ha, hclosed⟩ := hbodied
      exact ⟨a, ha, Option.some.inj hclose, fun r hr => .inl (hclosed r hr)⟩
  | inBody a b =>
      obtain ⟨hk, hw, hb, _⟩ := hbodied
      obtain ⟨hundelimited, hedge⟩ := hends.edge_of_bodyOpen rfl
      refine ⟨a.resolve b, Draft.bodied_resolve hk hb hw, Option.some.inj hclose, ?_⟩
      intro r hr
      rw [(a.frame_resolve b).2.2] at hr
      obtain rfl := Option.some.inj hr
      refine .inr ⟨?_, hundelimited, hedge⟩
      intro i l hi hlast
      exact hb.notes i l hi (Nat.lt_succ_of_le hlast)

theorem parse_bodies (d : Defaults) (text : String) {c : Command} (h : c ∈ parse d text) :
    (c.bodyRange = none → c.body = none ∧ ∀ w ∈ c.warnings, w.isMalformed = false) ∧
      (∀ r, c.bodyRange = some r →
        c.kind = .send ∧ c.range.first < r.first ∧ r.last ≤ c.range.last ∧
          Spans (splitLines text.toList) r ∧
          Resolves (splitLines text.toList) r c.body c.warnings ∧
          (braceBalance (textLines (splitLines text.toList) r).flatten ≤ 0 ∨
            Unclosed d (splitLines text.toList) c r)) ∧
      (c.kind = .send → ∀ i l, c.bodyRange.elim c.range.first LineRange.last < i →
        i ≤ c.range.last → (splitLines text.toList)[i]? = some l → (trim l).head? ≠ some '{') := by
  obtain ⟨a, ha, hc, hclosed⟩ := exists_bodied_of_mem_parse h
  have hplaced := placed_of_mem_parse h
  have hkind : a.kind = c.kind := by rw [← hc]; rfl
  have hfirst : a.first = c.range.first := by rw [← hc]; rfl
  have hbody : a.body = c.body := by rw [← hc]; rfl
  have hrange : a.bodyRange = c.bodyRange := by rw [← hc]; rfl
  have hwarnings : a.warnings = c.warnings := by rw [← hc]; rfl
  obtain ⟨habsent, hpresent, hlatest⟩ := ha
  rw [hrange, hbody, hwarnings] at habsent
  rw [hrange, hkind, hbody, hwarnings] at hpresent
  rw [hkind, Draft.bodyEnd, hrange, hfirst] at hlatest
  rw [hrange] at hclosed
  refine ⟨?_, ?_, ?_⟩
  · intro hnone
    obtain ⟨hb, hw⟩ := habsent hnone
    refine ⟨hb, ?_⟩
    simpa [List.filter_eq_nil_iff] using hw
  · intro r hr
    obtain ⟨hk, hspans, hresolves⟩ := hpresent r hr
    obtain ⟨hfirst, _, hlast⟩ := hplaced.body r hr
    exact ⟨hk, hfirst, hlast, hspans, hresolves, hclosed r hr⟩
  · intro hk i l hi hlast
    exact hlatest hk i l hi (Nat.lt_succ_of_le hlast)

theorem parse_bodies_replaced_and_unclosed :
    let d : Defaults := ⟨"p", "eu"⟩
    let text := "SEND q\n\x7b]\x7d\n\x7b\"a\":\n# a\n###\n1\x7d\nprofile: x\nSEND r\n\x7b\"b\": \x7b\n\n###"
    let lines := splitLines text.toList
    (parse d text).map Command.range = [⟨0, 6⟩, ⟨7, 10⟩] ∧
      (parse d text).map Command.bodyRange = [some ⟨2, 5⟩, some ⟨8, 8⟩] ∧
      (∀ c ∈ (parse d text).head?, Spans lines ⟨2, 5⟩ ∧ Resolves lines ⟨2, 5⟩ c.body c.warnings) ∧
      ∀ c ∈ (parse d text).getLast?, Resolves lines ⟨8, 8⟩ c.body c.warnings ∧
        0 < braceBalance (textLines lines ⟨8, 8⟩).flatten ∧ Unclosed d lines c ⟨8, 8⟩ := by
  intro d text lines
  refine ⟨by decide, by decide, ?_, ?_⟩
  · intro c hc
    obtain ⟨_, hpresent, _⟩ := parse_bodies d text (List.mem_of_head? hc)
    have hrange : ∀ c ∈ (parse d text).head?, c.bodyRange = some ⟨2, 5⟩ := by decide
    obtain ⟨_, _, _, hspans, hresolves, _⟩ := hpresent _ (hrange c hc)
    exact ⟨hspans, hresolves⟩
  · intro c hc
    obtain ⟨_, hpresent, _⟩ := parse_bodies d text (List.mem_of_getLast? hc)
    have hrange : ∀ c ∈ (parse d text).getLast?, c.bodyRange = some ⟨8, 8⟩ := by decide
    have hopen : 0 < braceBalance (textLines lines ⟨8, 8⟩).flatten := by decide
    obtain ⟨_, _, _, _, hresolves, hclosed⟩ := hpresent _ (hrange c hc)
    exact ⟨hresolves, hopen, hclosed.resolve_left (Int.not_le.mpr hopen)⟩

end QueueScript.Script
