import QueueScript.Proofs.Json.Compact
import QueueScript.Proofs.Script.Body

namespace QueueScript.Script

open State (Passes scan)
open Text (trim trimStart isBlank splitLines joinLines decimal)

structure SettingText where
  text : String
  ne_empty : text ≠ ""
  feed : '\n' ∉ text.toList
  trimmed : trim text.toList = text.toList

inductive Setting where
  | profile (value : SettingText)
  | region (value : SettingText)
  | maxMessages (n : UInt32)
  | visibilityTimeout (n : UInt32)
  | waitTime (n : UInt32)

namespace Setting

def key : Setting → ParameterKey
  | .profile _ => .profile
  | .region _ => .region
  | .maxMessages _ => .maxMessages
  | .visibilityTimeout _ => .visibilityTimeout
  | .waitTime _ => .waitTime

def value : Setting → String
  | .profile v => v.text
  | .region v => v.text
  | .maxMessages n => String.ofList (decimal n.toNat)
  | .visibilityTimeout n => String.ofList (decimal n.toNat)
  | .waitTime n => String.ofList (decimal n.toNat)

def line (s : Setting) : Line := parameterLine s.key s.value

def text? (key : ParameterKey) (s : Setting) : Option String :=
  if s.key = key then some s.value else none

def count? (key : ParameterKey) (s : Setting) : Option UInt32 :=
  match s with
  | .maxMessages n => if key = .maxMessages then some n else none
  | .visibilityTimeout n => if key = .visibilityTimeout then some n else none
  | .waitTime n => if key = .waitTime then some n else none
  | _ => none

def lastOf {α : Type} (f : Setting → Option α) (ss : List Setting) : Option α :=
  (ss.filterMap f).getLast?

def parameters : Nat → List Setting → List Parameter
  | _, [] => []
  | index, s :: ss => ⟨s.key, s.value, index⟩ :: parameters (index + 1) ss

end Setting

structure Block where
  kind : Kind
  target : String
  settings : List Setting
  body : Option (List (String × Json))
  delimited : Bool
  isTarget : IsTarget target
  applies : ∀ s ∈ settings, s.key.appliesTo kind = true
  sends : body ≠ none → kind = .send
  body_exact : ∀ ms, body = some ms → Json.Exact Json.maxDepth (.object ms)
  body_unbraced : ∀ ms, body = some ms → Json.Unbraced (.object ms)

namespace Block

def bodyLines (b : Block) : List Line :=
  match b.body with
  | some ms => [(Json.compact (.object ms)).toList]
  | none => []

def lines (b : Block) : List Line :=
  headerLine b.kind b.target :: (b.settings.map Setting.line ++ b.bodyLines ++
    if b.delimited then [['#', '#', '#']] else [])

def command (d : Defaults) (index : Nat) (b : Block) : Command where
  kind := b.kind
  target := b.target
  profile := (Setting.lastOf (Setting.text? .profile) b.settings).getD d.profile
  region := (Setting.lastOf (Setting.text? .region) b.settings).getD d.region
  body := b.body.map Json.object
  attributes := none
  maxMessages := Setting.lastOf (Setting.count? .maxMessages) b.settings
  visibilityTimeout := Setting.lastOf (Setting.count? .visibilityTimeout) b.settings
  waitTime := Setting.lastOf (Setting.count? .waitTime) b.settings
  range := ⟨index, index + b.lines.length - 1⟩
  bodyRange := b.body.map
    (fun _ => ⟨index + 1 + b.settings.length, index + 1 + b.settings.length⟩)
  parameters := Setting.parameters (index + 1) b.settings
  warnings := []

def commands (d : Defaults) : Nat → List Block → List Command
  | _, [] => []
  | index, b :: bs => b.command d index :: commands d (index + b.lines.length) bs

end Block

def render (bs : List Block) : String := String.ofList (joinLines (bs.flatMap Block.lines))

namespace Setting

theorem lastOf_cons {α : Type} (f : Setting → Option α) (s : Setting) (ss : List Setting) :
    lastOf f (s :: ss) = (lastOf f ss).or (f s) := by
  cases hf : f s with
  | none => simp [lastOf, hf]
  | some a => simp [lastOf, hf, List.getLast?_cons, Option.or_some]

theorem value_plain (s : Setting) :
    s.value.toList ≠ [] ∧ '\n' ∉ s.value.toList ∧ trim s.value.toList = s.value.toList := by
  have htext (v : SettingText) :
      v.text.toList ≠ [] ∧ '\n' ∉ v.text.toList ∧ trim v.text.toList = v.text.toList :=
    ⟨by simpa using v.ne_empty, v.feed, v.trimmed⟩
  have hcount (n : UInt32) : (String.ofList (decimal n.toNat)).toList ≠ [] ∧
      '\n' ∉ (String.ofList (decimal n.toNat)).toList ∧
        trim (String.ofList (decimal n.toNat)).toList = (String.ofList (decimal n.toNat)).toList := by
    have hdigit {c : Char} (hc : c ∈ decimal n.toNat) : isBlank c = false :=
      isBlank_of_isToken (Json.isToken_of_isDigit (Text.isDigit_of_mem_decimal hc))
        (Json.isSpace_of_isDigit (Text.isDigit_of_mem_decimal hc))
    rw [String.toList_ofList]
    refine ⟨Text.decimal_ne_nil _, ?_, Text.trim_eq_self ?_ ?_⟩
    · intro hm
      exact absurd (hdigit hm) (by decide)
    · exact fun c hc => hdigit (List.mem_of_head? hc)
    · exact fun c hc => hdigit (List.mem_of_getLast? hc)
  cases s with
  | profile v => exact htext v
  | region v => exact htext v
  | maxMessages n => exact hcount n
  | visibilityTimeout n => exact hcount n
  | waitTime n => exact hcount n

theorem line_feed (s : Setting) : '\n' ∉ s.line := by
  have hname : '\n' ∉ s.key.name.toList := by cases s.key <;> decide
  simp [line, parameterLine, hname, s.value_plain.2.1]

end Setting

def Draft.configured (a : Draft) (index : Nat) (ss : List Setting) : Draft :=
  { a with
    profile := (Setting.lastOf (Setting.text? .profile) ss).getD a.profile
    region := (Setting.lastOf (Setting.text? .region) ss).getD a.region
    maxMessages := (Setting.lastOf (Setting.count? .maxMessages) ss).or a.maxMessages
    visibilityTimeout :=
      (Setting.lastOf (Setting.count? .visibilityTimeout) ss).or a.visibilityTimeout
    waitTime := (Setting.lastOf (Setting.count? .waitTime) ss).or a.waitTime
    parameters := a.parameters ++ Setting.parameters index ss }

theorem Draft.set_setting (a : Draft) (i : Nat) (s : Setting) :
    a.set ⟨s.key, s.value, i⟩ = a.configured i [s] := by
  cases s <;>
    simp [Draft.set, Draft.setCount, Draft.record, Draft.configured, Setting.key, Setting.value,
      Setting.lastOf, Setting.text?, Setting.count?, Setting.parameters, Text.count?_decimal]

theorem Draft.configured_cons (a : Draft) (i : Nat) (s : Setting) (ss : List Setting) :
    a.configured i (s :: ss) = (a.configured i [s]).configured (i + 1) ss := by
  simp only [Draft.configured, Setting.lastOf_cons, Setting.parameters, List.append_assoc,
    List.singleton_append, Option.or_assoc, Option.getD_or]
  simp [Setting.lastOf]

variable {d : Defaults} {a : Draft} {i : Nat}

theorem step_setting {s : Setting} (h : s.key.appliesTo a.kind = true) :
    (State.inBlock a).step d i s.line = (.inBlock (a.configured i [s]), none) := by
  obtain ⟨hne, _, ht⟩ := s.value_plain
  rw [Setting.line, State.step_of_content (classify_parameterLine hne ht s.key), State.contentLine,
    State.inBlockLine]
  simp only [trim_parameterLine hne ht, parameter?_parameterLine hne ht, Option.filter_some, h,
    if_true, Draft.set_setting]

theorem passes_settings {ss : List Setting} (h : ∀ s ∈ ss, s.key.appliesTo a.kind = true) :
    Passes d i (ss.map Setting.line) (.inBlock a) (.inBlock (a.configured i ss)) := by
  induction ss generalizing a i with
  | nil =>
      have hnone : a.configured i [] = a := by
        simp [Draft.configured, Setting.lastOf, Setting.parameters]
      rw [hnone]
      exact .nil d i _
  | cons s ss ih =>
      obtain ⟨hs, hss⟩ := List.forall_mem_cons.mp h
      rw [Draft.configured_cons]
      exact .cons (step_setting hs) (ih hss)

namespace Block

def draft (d : Defaults) (index : Nat) (b : Block) : Draft :=
  { (Draft.start d b.kind b.target index).configured (index + 1) b.settings with
    body := b.body.map Json.object
    bodyRange := b.body.map
      (fun _ => ⟨index + 1 + b.settings.length, index + 1 + b.settings.length⟩) }

theorem finish_draft (d : Defaults) (i : Nat) (b : Block) :
    (b.draft d i).finish (i + b.lines.length - 1) = b.command d i := by
  simp [draft, Draft.finish, command, Draft.configured, Draft.start]

theorem inline_body {b : Block} {ms : List (String × Json)} (h : b.body = some ms) :
    Json.Inline (Json.compact (.object ms)).toList := by
  rw [Json.compact, String.toList_ofList]
  exact (b.body_exact ms h).inline (b.body_unbraced ms h) 0

theorem passes_body (d : Defaults) (i : Nat) (b : Block) :
    Passes d (i + 1 + b.settings.length) b.bodyLines
      (.inBlock ((Draft.start d b.kind b.target i).configured (i + 1) b.settings))
      (.inBlock (b.draft d i)) := by
  cases hb : b.body with
  | none =>
      have hdraft : b.draft d i =
          (Draft.start d b.kind b.target i).configured (i + 1) b.settings := by
        simp only [draft, hb, Option.map_none]
        rfl
      rw [hdraft, bodyLines, hb]
      exact .nil d _ _
  | some ms =>
      have hinline := b.inline_body hb
      have hkind : ((Draft.start d b.kind b.target i).configured (i + 1) b.settings).kind = .send :=
        b.sends (by simp [hb])
      have hparse : Json.parse (Json.compact (.object ms)).toList = .ok (.object ms) := by
        rw [Json.compact, String.toList_ofList]
        exact (b.body_exact ms hb).parse_write Json.Style.blank_compact 0
      have hline := Text.splitLines_of_not_mem hinline.feed
      have hpasses := passes_object (d := d) (i := i + 1 + b.settings.length) hparse
        hinline.brace_free hkind
      have hfull : fullLines [(Json.compact (.object ms)).toList] = ⟨0, 0⟩ := by
        obtain ⟨s, hs⟩ := Json.exists_write_object_eq_cons .compact 0 ms
        rw [Json.compact, String.toList_ofList, hs]
        exact fullLines_singleton (trim_ne_nil_of_mem (List.mem_cons_self ..) (by decide))
      rw [hline, hfull] at hpasses
      rw [bodyLines, hb]
      simpa [draft, hb] using hpasses

theorem scan_blocks (d : Defaults) (i : Nat) (bs : List Block) (s : State) :
    scan d i (bs.flatMap lines) s = (s.close (i - 1)).toList ++ commands d i bs := by
  induction bs generalizing i s with
  | nil => simp [State.scan_nil, commands]
  | cons b bs ih =>
      have hpasses : Passes d (i + 1) (b.settings.map Setting.line ++ b.bodyLines)
          (.inBlock (.start d b.kind b.target i)) (.inBlock (b.draft d i)) := by
        refine Passes.append (passes_settings b.applies) ?_
        rw [List.length_map]
        exact b.passes_body d i
      have hfinish := b.finish_draft d i
      have hlength : b.lines.length = (b.settings.map Setting.line ++ b.bodyLines).length +
          (if b.delimited then 1 else 0) + 1 := by
        rw [lines, List.length_cons, List.length_append]
        split <;> rfl
      rw [commands, List.flatMap_cons, ← hfinish, hlength, lines, List.cons_append, State.scan_cons,
        State.step_of_header (classify_headerLine b.kind b.isTarget), List.append_assoc,
        hpasses.scan_append]
      generalize (b.settings.map Setting.line ++ b.bodyLines).length = n
      -- With a delimiter the block ends there; without one it ends where the next block starts.
      cases b.delimited with
      | true =>
          have hnext : i + (n + 1 + 1) = i + 1 + n + 1 := by omega
          simp only [if_true, List.singleton_append, State.scan_cons,
            State.step_delimiter_inBlock classify_delimiterLine, ih, hnext]
          rfl
      | false =>
          have hnext : i + (n + 0 + 1) = i + 1 + n := by omega
          simp only [Bool.false_eq_true, if_false, List.nil_append, ih, hnext]
          rfl

theorem feed_of_mem_lines {b : Block} {l : Line} (h : l ∈ b.lines) : '\n' ∉ l := by
  simp only [lines, List.mem_cons, List.mem_append, List.mem_map] at h
  rcases h with rfl | (⟨s, _, rfl⟩ | h) | h
  · have hkeyword : '\n' ∉ b.kind.keyword.toList := by cases b.kind <;> decide
    simp [headerLine, hkeyword, b.isTarget.not_mem_feed]
  · exact s.line_feed
  · cases hb : b.body with
    | none => simp [bodyLines, hb] at h
    | some ms =>
        simp only [bodyLines, hb, List.mem_singleton] at h
        rw [h]
        exact (b.inline_body hb).feed
  · split at h
    · rw [List.mem_singleton.mp h]
      decide
    · cases h

end Block

theorem parse_render (d : Defaults) (bs : List Block) :
    parse d (render bs) = Block.commands d 0 bs := by
  cases bs with
  | nil => rfl
  | cons b bs =>
      have hne : (b :: bs).flatMap Block.lines ≠ [] := by simp [Block.lines]
      have hfeed : ∀ l ∈ (b :: bs).flatMap Block.lines, '\n' ∉ l := by
        intro l hl
        obtain ⟨x, _, hx⟩ := List.mem_flatMap.mp hl
        exact Block.feed_of_mem_lines hx
      rw [parse, render, String.toList_ofList, Text.splitLines_joinLines hne hfeed,
        Block.scan_blocks]
      rfl

theorem parse_render_two_blocks :
    ∃ bs : List Block,
      render bs = "RECEIVE q\nprofile: a: b\nwait-time: 5\nwait-time: 20\nSEND r\n\x7b\"k\":[-1]\x7d\n###" ∧
        parse ⟨"p", "eu"⟩ (render bs) = Block.commands ⟨"p", "eu"⟩ 0 bs ∧
        (Block.commands ⟨"p", "eu"⟩ 0 bs).map
            (fun c => (c.kind, c.target, c.profile, c.waitTime, c.range, c.bodyRange)) =
          [(.receive, "q", "a: b", some 20, ⟨0, 3⟩, none),
            (.send, "r", "p", none, ⟨4, 6⟩, some ⟨5, 5⟩)] := by
  have hexact : Json.Exact Json.maxDepth (.object [("k", .array [.number (.whole (-1))])]) := by
    refine .object (by simp [Table.Sorted, Table.keys]) ?_
    simp only [List.forall_mem_singleton]
    refine .array ?_
    simp only [List.forall_mem_singleton]
    exact .number (by decide) (by decide)
  have hunbraced : Json.Unbraced (.object [("k", .array [.number (.whole (-1))])]) := by
    refine .object (by decide) ?_
    simp only [List.forall_mem_singleton]
    refine .array ?_
    simp only [List.forall_mem_singleton]
    exact .number
  refine ⟨[
    { kind := .receive
      target := "q"
      settings := [.profile ⟨"a: b", by decide, by decide, by decide⟩, .waitTime 5, .waitTime 20]
      body := none
      delimited := false
      isTarget := by decide
      applies := by decide
      sends := by simp
      body_exact := by simp
      body_unbraced := by simp },
    { kind := .send
      target := "r"
      settings := []
      body := some [("k", .array [.number (.whole (-1))])]
      delimited := true
      isTarget := by decide
      applies := by simp
      sends := by simp
      body_exact := by simpa using hexact
      body_unbraced := by simpa using hunbraced }], ?_, parse_render _ _, ?_⟩
  · cbv
  · rfl

end QueueScript.Script
