import QueueScript.Proofs.Json.Layout
import QueueScript.Proofs.Script.Run

namespace QueueScript.Script

open Json (Spaces StartsPlain isSpace isToken skipSpace)
open State (Passes scan advanceBody)
open Text (trim trimStart isBlank splitLines joinLines)

def kept (l : Line) : Bool := classify l ≠ .silent

theorem isBlank_of_isSpace {c : Char} (h : isSpace c = true) : isBlank c = true := by
  rcases Json.isSpace_cases h with rfl | rfl | rfl | rfl <;> decide

theorem isBlank_of_isToken {c : Char} (h : isToken c = true) (hs : isSpace c = false) :
    isBlank c = false := by
  simp only [isToken, hs, Bool.false_or, Bool.or_eq_true] at h
  rcases h with h | h
  · simp only [Text.isDigit, Bool.and_eq_true, decide_eq_true_eq, Char.le_def,
      UInt32.le_iff_toNat_le] at h
    have hlow : 48 ≤ c.toNat := h.1
    have hhigh : c.toNat ≤ 57 := h.2
    simp only [isBlank, Bool.or_eq_false_iff, Bool.and_eq_false_iff, decide_eq_false_iff_not,
      beq_eq_false_iff_ne]
    omega
  · have hall : ['[', ']', ':', ',', '+', '-', '.', 'e', 'E', 't', 'r', 'u', 'f', 'a', 'l', 's',
        'n'].all (fun x => !isBlank x) = true := by
      decide
    simpa using List.all_eq_true.mp hall c (List.contains_iff_mem.mp h)

theorem trimStart_of_skipSpace {s t : List Char} {c : Char} (h : skipSpace s = c :: t)
    (hc : isBlank c = false) : trimStart s = c :: t := by
  obtain ⟨w, hw, hspaces⟩ := Json.skipSpace_split s
  have hblank : ∀ x ∈ w, isBlank x = true := fun x hx => isBlank_of_isSpace (hspaces x hx)
  rw [hw, h, trimStart, List.dropWhile_append_of_pos hblank, List.dropWhile_cons_of_neg (by simp [hc])]

theorem trim_of_spaces {l : Line} (h : Spaces l) : trim l = [] :=
  Text.trim_eq_nil_iff.mpr (fun c hc => isBlank_of_isSpace (h c hc))

theorem classify_of_startsPlain {l : Line} (h : StartsPlain l) :
    (Spaces l ∧ trim l = [] ∧ classify l = .silent) ∨ (trim l ≠ [] ∧ classify l = .content) := by
  obtain ⟨w, hw, hspaces⟩ := Json.skipSpace_split l
  cases hs : skipSpace l with
  | nil =>
      rw [hs, List.append_nil] at hw
      have hl : Spaces l := hw ▸ hspaces
      exact .inl ⟨hl, trim_of_spaces hl, classify_eq_silent_of_trim (trim_of_spaces hl)⟩
  | cons c r =>
      have hc := h c (by rw [hs]; rfl)
      have hns : isSpace c = false := Json.isSpace_of_skipSpace hs
      have hnb : isBlank c = false := by
        rcases hc with hc | rfl | rfl | rfl
        · exact isBlank_of_isToken hc hns
        · decide
        · decide
        · decide
      have hhead : (trim l).head? = some c := by
        rw [Text.head?_trim, trimStart_of_skipSpace hs hnb]
        rfl
      refine .inr ⟨?_, classify_eq_content hhead ?_⟩
      · intro hnil
        simp [hnil] at hhead
      · refine ⟨?_, ?_, ?_, ?_⟩ <;> rintro rfl <;> revert hc <;> decide

namespace OpenBody

theorem braceBalance_append (l m : Line) :
    braceBalance (l ++ m) = braceBalance l + braceBalance m := by
  simp only [braceBalance, List.count_append]
  omega

def extend (b : OpenBody) : Nat → List Line → OpenBody
  | _, [] => b
  | i, l :: ls => if kept l then extend (b.push i l) (i + 1) ls else extend b (i + 1) ls

theorem extend_cons_of_kept {l : Line} (h : kept l = true) (b : OpenBody) (i : Nat)
    (ls : List Line) : b.extend i (l :: ls) = (b.push i l).extend (i + 1) ls := by
  simp only [extend, h, if_true]

theorem extend_cons_of_silent {l : Line} (h : kept l = false) (b : OpenBody) (i : Nat)
    (ls : List Line) : b.extend i (l :: ls) = b.extend (i + 1) ls := by
  simp [extend, h]

theorem extend_append (b : OpenBody) (i : Nat) (ls ms : List Line) :
    b.extend i (ls ++ ms) = (b.extend i ls).extend (i + ls.length) ms := by
  induction ls generalizing b i with
  | nil => rfl
  | cons l ls ih =>
      have hi : i + (l :: ls).length = i + 1 + ls.length := by
        rw [List.length_cons]
        omega
      rw [List.cons_append, hi]
      cases hk : kept l with
      | true => rw [extend_cons_of_kept hk, extend_cons_of_kept hk, ih]
      | false => rw [extend_cons_of_silent hk, extend_cons_of_silent hk, ih]

theorem extend_lines (b : OpenBody) (i : Nat) (ls : List Line) :
    (b.extend i ls).first = b.first ∧ (b.extend i ls).lines = b.lines ++ ls.filter kept := by
  induction ls generalizing b i with
  | nil => simp [extend]
  | cons l ls ih =>
      cases hk : kept l with
      | true =>
          obtain ⟨hfirst, hlines⟩ := ih (b.push i l) (i + 1)
          rw [extend_cons_of_kept hk, hfirst, hlines, List.filter_cons_of_pos hk]
          simp [push]
      | false =>
          rw [extend_cons_of_silent hk, List.filter_cons_of_neg (by simp [hk])]
          exact ih b (i + 1)

theorem extend_depth (b : OpenBody) (i : Nat) {ls : List Line}
    (h : ∀ l ∈ ls, kept l = false → braceBalance l = 0) :
    (b.extend i ls).depth = b.depth + braceBalance ls.flatten := by
  induction ls generalizing b i with
  | nil => simp [extend, braceBalance]
  | cons l ls ih =>
      obtain ⟨hl, hls⟩ := List.forall_mem_cons.mp h
      rw [List.flatten_cons, braceBalance_append]
      cases hk : kept l with
      | true =>
          have hpush : (b.push i l).depth = b.depth + braceBalance l := rfl
          rw [extend_cons_of_kept hk, ih _ _ hls, hpush]
          omega
      | false =>
          rw [extend_cons_of_silent hk, ih _ _ hls, hl hk, Int.zero_add]

end OpenBody

open State (passes_silent)

variable {d : Defaults} {a : Draft} {b : OpenBody} {i : Nat} {ls : List Line}

theorem passes_advanceBody (hl : ∀ l ∈ ls, classify l = .silent ∨ classify l = .content)
    (hclose : ∀ ms ns, ls = ms ++ ns → ((b.extend i ms).isClosed = true ↔ ns = [])) :
    Passes d i ls (advanceBody a b) (.inBlock (a.resolve (b.extend i ls))) := by
  induction ls generalizing b i with
  | nil =>
      have hb : b.isClosed = true := (hclose [] [] rfl).mpr rfl
      rw [advanceBody, if_pos hb]
      exact .nil d i _
  | cons l ls ih =>
      obtain ⟨hl, hls⟩ := List.forall_mem_cons.mp hl
      have hopen : b.isClosed ≠ true := by
        intro hb
        have hnil := (hclose [] (l :: ls) rfl).mp hb
        cases hnil
      have hstate : advanceBody a b = .inBody a b := if_neg hopen
      rcases hl with hl | hl
      · have hk : kept l = false := by simp [kept, hl]
        rw [OpenBody.extend_cons_of_silent hk]
        refine .cons (State.step_of_silent hl) (ih hls ?_)
        intro ms ns hms
        rw [← OpenBody.extend_cons_of_silent hk]
        exact hclose (l :: ms) ns (by rw [hms]; rfl)
      · have hk : kept l = true := by simp [kept, hl]
        rw [OpenBody.extend_cons_of_kept hk, hstate]
        refine .cons (State.step_of_content hl) (ih hls ?_)
        intro ms ns hms
        rw [← OpenBody.extend_cons_of_kept hk]
        exact hclose (l :: ms) ns (by rw [hms]; rfl)

theorem inBlockLine_of_brace {l : Line} (hk : a.kind = .send) (h : (trim l).head? = some '{') :
    State.inBlockLine a i l = advanceBody a (.start i l) := by
  simp only [State.inBlockLine, parameter?_of_brace h, Option.filter_none, hk, h, and_self, if_true]

theorem head?_trim_of_skipSpace {l : Line} (h : (skipSpace l).head? = some '{') :
    (trim l).head? = some '{' := by
  cases hs : skipSpace l with
  | nil => simp [hs] at h
  | cons c r =>
      obtain rfl : c = '{' := by simpa [hs] using h
      rw [Text.head?_trim, trimStart_of_skipSpace hs (by decide)]
      rfl

theorem braceBalance_of_spaces {l : Line} (h : Spaces l) : OpenBody.braceBalance l = 0 := by
  have ho : l.count '{' = 0 := h.count_eq_zero rfl
  have hc : l.count '}' = 0 := h.count_eq_zero rfl
  simp [OpenBody.braceBalance, ho, hc]

theorem isClosed_iff {b : OpenBody} {ms : List Line} {l : Line}
    (h : b.depth = OpenBody.braceBalance (l :: ms).flatten) :
    b.isClosed = true ↔ (l :: ms).flatten.count '{' ≤ (l :: ms).flatten.count '}' := by
  rw [OpenBody.isClosed, decide_eq_true_iff, h, OpenBody.braceBalance]
  omega

theorem classify_of_spaces {ls : List Line} (h : ∀ l ∈ ls, Spaces l) :
    ∀ l ∈ ls, classify l = .silent :=
  fun l hl => classify_eq_silent_of_trim (trim_of_spaces (h l hl))

theorem filter_kept_of_spaces {ls : List Line} (h : ∀ l ∈ ls, Spaces l) : ls.filter kept = [] := by
  rw [List.filter_eq_nil_iff]
  intro l hl
  simp [kept, classify_of_spaces h l hl]

theorem spaces_of_not_kept {l : Line} (h : StartsPlain l) (hk : kept l = false) : Spaces l := by
  rcases classify_of_startsPlain h with ⟨hs, _, _⟩ | ⟨_, hc⟩
  · exact hs
  · simp [kept, hc] at hk

theorem OpenBody.extend_last {l : Line} {ms : List Line} (b : OpenBody) (i : Nat)
    (h : kept l = true) : (b.extend i (ms ++ [l])).last = i + ms.length := by
  rw [OpenBody.extend_append, OpenBody.extend_cons_of_kept h]
  rfl

section

variable {text opening : List Char} {before inner behind : List Line}

theorem mem_splitLines_of_objectLines (h : Json.ObjectLines text before opening inner behind) :
    ∀ l ∈ opening :: inner, l ∈ splitLines text := by
  intro l hl
  rw [h.split]
  exact List.mem_append_left _ (List.mem_append_right _ hl)

theorem isClosed_objectLines (h : Json.ObjectLines text before opening inner behind)
    (hplain : ∀ l ∈ splitLines text, StartsPlain l) (j : Nat) (ms ns : List Line)
    (hms : inner = ms ++ ns) :
    ((OpenBody.start j opening).extend (j + 1) ms).isClosed = true ↔ ns = [] := by
  rw [← h.balance ms ns hms]
  refine isClosed_iff ?_
  rw [OpenBody.extend_depth, List.flatten_cons, OpenBody.braceBalance_append]
  · rfl
  · intro l hl hkl
    have hl' : l ∈ opening :: inner := by simp [hms, hl]
    have hp := hplain l (mem_splitLines_of_objectLines h l hl')
    exact braceBalance_of_spaces (spaces_of_not_kept hp hkl)

theorem last_objectLines (h : Json.ObjectLines text before opening inner behind)
    (hplain : ∀ l ∈ splitLines text, StartsPlain l) (j : Nat) :
    ((OpenBody.start j opening).extend (j + 1) inner).last = j + inner.length := by
  rcases List.eq_nil_or_concat inner with rfl | ⟨zs, x, rfl⟩
  · rfl
  · rw [List.concat_eq_append] at h ⊢
    have hx : '}' ∈ x := h.closes x (by simp [List.getLast?_cons])
    have hp := hplain x (mem_splitLines_of_objectLines h x (by simp))
    have hkx : kept x = true := by
      rw [← Bool.not_eq_false]
      intro hkf
      exact absurd (spaces_of_not_kept hp hkf '}' hx) (by decide)
    rw [OpenBody.extend_last _ _ hkx, List.length_append, List.length_singleton]
    omega

theorem passes_objectLines (h : Json.ObjectLines text before opening inner behind)
    (hplain : ∀ l ∈ splitLines text, StartsPlain l) (hk : a.kind = .send) :
    Passes d i (splitLines text) (.inBlock a) (.inBlock (a.resolve
      ((OpenBody.start (i + before.length) opening).extend (i + before.length + 1) inner))) := by
  have hopen : (trim opening).head? = some '{' := head?_trim_of_skipSpace h.opens
  have hcontent : classify opening = .content := classify_eq_content hopen (by decide)
  have hclass : ∀ l ∈ inner, classify l = .silent ∨ classify l = .content := by
    intro l hl
    have hp := hplain l (mem_splitLines_of_objectLines h l (List.mem_cons_of_mem _ hl))
    rcases classify_of_startsPlain hp with ⟨_, _, hc⟩ | ⟨_, hc⟩
    · exact .inl hc
    · exact .inr hc
  have hstep : (State.inBlock a).step d (i + before.length) opening =
      (advanceBody a (.start (i + before.length) opening), none) := by
    rw [State.step_of_content hcontent, State.contentLine, inBlockLine_of_brace hk hopen]
  rw [h.split]
  refine Passes.append (Passes.append (passes_silent _ (classify_of_spaces h.blank_before)) ?_)
    (passes_silent _ (classify_of_spaces h.blank_behind))
  exact .cons hstep (passes_advanceBody hclass (isClosed_objectLines h hplain _))

theorem text_objectLines (h : Json.ObjectLines text before opening inner behind) (j : Nat) :
    ((OpenBody.start j opening).extend (j + 1) inner).text =
      joinLines ((splitLines text).filter kept) := by
  have hopening : kept opening = true := by
    have hc := classify_eq_content (head?_trim_of_skipSpace h.opens) (by decide)
    simp [kept, hc]
  have hlines : ((OpenBody.start j opening).extend (j + 1) inner).lines =
      opening :: inner.filter kept := (OpenBody.extend_lines _ _ _).2
  rw [OpenBody.text, hlines, h.split, List.filter_append, List.filter_append,
    filter_kept_of_spaces h.blank_before, filter_kept_of_spaces h.blank_behind,
    List.filter_cons_of_pos hopening, List.nil_append, List.append_nil]

theorem parse_kept {v : Json} (hplain : ∀ l ∈ splitLines text, StartsPlain l)
    (hv : Json.parse text = .ok v) :
    Json.parse (joinLines ((splitLines text).filter kept)) = .ok v := by
  obtain ⟨w, t, hjoin, hw, ht⟩ := Json.respaced_joinLines
    (fun l hl => Text.not_mem_of_mem_splitLines hl)
    (fun l hl hk => spaces_of_not_kept (hplain l hl) hk)
  rw [Text.joinLines_splitLines] at hjoin
  rw [hjoin, Json.parse_append_spaces hw] at hv
  exact (Json.parse_respaced ht v).mpr hv

theorem findIdx_full {ls ms : List Line} {l : Line} (h : ∀ x ∈ ls, Spaces x) (hl : trim l ≠ []) :
    (ls ++ l :: ms).findIdx (fun x => trim x ≠ []) = ls.length := by
  induction ls with
  | nil => simp [List.findIdx_cons, hl]
  | cons x ls ih =>
      obtain ⟨hx, hls⟩ := List.forall_mem_cons.mp h
      have hblank : trim x = [] := trim_of_spaces hx
      simp only [List.cons_append, List.findIdx_cons, ih hls, hblank]
      simp

end

def fullLines (ls : List Line) : LineRange where
  first := ls.findIdx (fun l => trim l ≠ [])
  last := ls.length - 1 - ls.reverse.findIdx (fun l => trim l ≠ [])

theorem trim_ne_nil_of_mem {l : Line} {c : Char} (hc : c ∈ l) (hb : isBlank c = false) :
    trim l ≠ [] := by
  intro hnil
  rw [Text.trim_eq_nil_iff.mp hnil c hc] at hb
  cases hb

theorem fullLines_singleton {l : Line} (h : trim l ≠ []) : fullLines [l] = ⟨0, 0⟩ := by
  simp [fullLines, List.findIdx_cons, h]

theorem fullLines_objectLines {text opening : List Char} {before inner behind : List Line}
    (h : Json.ObjectLines text before opening inner behind) :
    fullLines (splitLines text) = ⟨before.length, before.length + inner.length⟩ := by
  have hopen : trim opening ≠ [] := by
    intro hnil
    have hhead := head?_trim_of_skipSpace h.opens
    simp [hnil] at hhead
  obtain ⟨os, o, ho⟩ : ∃ os o, opening :: inner = os ++ [o] :=
    ⟨_, _, (List.dropLast_concat_getLast (List.cons_ne_nil opening inner)).symm⟩
  have hclose : trim o ≠ [] :=
    trim_ne_nil_of_mem (h.closes o (by rw [ho, List.getLast?_concat])) (by decide)
  have hlength : os.length = inner.length := by
    have hl := congrArg List.length ho
    simpa using hl.symm
  have hfirst : (splitLines text).findIdx (fun l => trim l ≠ []) = before.length := by
    rw [h.split, List.append_assoc, List.cons_append]
    exact findIdx_full h.blank_before hopen
  have hlast : (splitLines text).reverse.findIdx (fun l => trim l ≠ []) = behind.length := by
    have hreverse : (splitLines text).reverse = behind.reverse ++ o :: (before ++ os).reverse := by
      rw [h.split, ho]
      simp
    rw [hreverse, findIdx_full (fun l hl => h.blank_behind l (List.mem_reverse.mp hl)) hclose,
      List.length_reverse]
  have htotal : (splitLines text).length = before.length + inner.length + 1 + behind.length := by
    rw [h.split, List.length_append, List.length_append, List.length_cons]
    omega
  simp only [fullLines, hfirst, hlast, htotal, LineRange.mk.injEq, true_and]
  omega

theorem Draft.resolve_of_parse (a : Draft) {b : OpenBody} {v : Json} (h : Json.parse b.text = .ok v) :
    a.resolve b = { a with body := some v, bodyRange := some ⟨b.first, b.last⟩ } := by
  simp only [Draft.resolve, h]

theorem Draft.resolve_of_error (a : Draft) {b : OpenBody} {e : Json.ReadError}
    (h : Json.parse b.text = .error e) :
    a.resolve b = { a with body := none, bodyRange := some ⟨b.first, b.last⟩ }.warn
      (.malformedBody b.first e.message) := by
  simp only [Draft.resolve, h]

theorem passes_object {text : List Char} {ms : List (String × Json)}
    (hparse : Json.parse text = .ok (.object ms)) (hf : Json.BraceFree text) (hk : a.kind = .send) :
    Passes d i (splitLines text) (.inBlock a) (.inBlock
      { a with
        body := some (.object ms)
        bodyRange := some ⟨i + (fullLines (splitLines text)).first,
          i + (fullLines (splitLines text)).last⟩ }) := by
  obtain ⟨hplain, before, opening, inner, behind, h⟩ := Json.exists_objectLines_of_parse hparse hf
  have hpasses := passes_objectLines (d := d) (i := i) h hplain hk
  have hvalue : Json.parse ((OpenBody.start (i + before.length) opening).extend
      (i + before.length + 1) inner).text = .ok (.object ms) := by
    rw [text_objectLines h]
    exact parse_kept hplain hparse
  have hfirst : ((OpenBody.start (i + before.length) opening).extend
      (i + before.length + 1) inner).first = i + before.length := (OpenBody.extend_lines _ _ _).1
  rw [Draft.resolve_of_parse a hvalue, hfirst, last_objectLines h hplain, Nat.add_assoc] at hpasses
  rw [fullLines_objectLines h]
  exact hpasses

theorem classify_delimiterLine : classify ['#', '#', '#'] = .delimiter := by
  decide

theorem parse_send_object (d : Defaults) {target json : String} {ms : List (String × Json)}
    (ht : IsTarget target) (hparse : Json.parse json.toList = .ok (.object ms))
    (hf : Json.BraceFree json.toList) :
    parse d ("SEND " ++ target ++ "\n" ++ json ++ "\n###") =
      [{ kind := .send
         target := target
         profile := d.profile
         region := d.region
         body := some (.object ms)
         attributes := none
         maxMessages := none
         visibilityTimeout := none
         waitTime := none
         range := ⟨0, 1 + (splitLines json.toList).length⟩
         bodyRange := some ⟨1 + (fullLines (splitLines json.toList)).first,
           1 + (fullLines (splitLines json.toList)).last⟩
         parameters := []
         warnings := [] }] := by
  have hheader : '\n' ∉ headerLine .send target := by
    simp [headerLine, Kind.keyword, ht.not_mem_feed]
  have hlines : splitLines ("SEND " ++ target ++ "\n" ++ json ++ "\n###").toList =
      headerLine .send target :: (splitLines json.toList ++ [['#', '#', '#']]) := by
    have htext : ("SEND " ++ target ++ "\n" ++ json ++ "\n###").toList =
        headerLine .send target ++ '\n' :: (json.toList ++ '\n' :: ['#', '#', '#']) := by
      simp [headerLine, Kind.keyword]
    rw [htext, Text.splitLines_append_feed, Text.splitLines_append_feed,
      Text.splitLines_of_not_mem hheader]
    rfl
  rw [parse, hlines, State.scan_cons, State.step_of_header (classify_headerLine .send ht),
    (passes_object hparse hf rfl).scan_append, State.scan_cons,
    State.step_delimiter_inBlock classify_delimiterLine]
  rfl

theorem parse_send_object_spread :
    IsTarget "q" ∧
      Json.parse "\n\x7b\"#\": [1,\n\n \x7b\x7d]\n\x7d \n".toList =
        .ok (.object [("#", .array [.ofNat 1, .object []])]) ∧
      Json.BraceFree "\n\x7b\"#\": [1,\n\n \x7b\x7d]\n\x7d \n".toList ∧
      parse ⟨"p", "r"⟩ ("SEND " ++ "q" ++ "\n" ++
          "\n\x7b\"#\": [1,\n\n \x7b\x7d]\n\x7d \n" ++ "\n###") =
        [{ kind := .send
           target := "q"
           profile := "p"
           region := "r"
           body := some (.object [("#", .array [.ofNat 1, .object []])])
           attributes := none
           maxMessages := none
           visibilityTimeout := none
           waitTime := none
           range := ⟨0, 7⟩
           bodyRange := some ⟨2, 5⟩
           parameters := []
           warnings := [] }] := by
  have ht : IsTarget "q" := by decide
  have hparse : Json.parse "\n\x7b\"#\": [1,\n\n \x7b\x7d]\n\x7d \n".toList =
      .ok (.object [("#", .array [.ofNat 1, .object []])]) := by cbv
  have hf : Json.BraceFree "\n\x7b\"#\": [1,\n\n \x7b\x7d]\n\x7d \n".toList := by decide
  exact ⟨ht, hparse, hf, parse_send_object ⟨"p", "r"⟩ ht hparse hf⟩

end QueueScript.Script
