import QueueScript.Proofs.Script.BodyRange
import QueueScript.Proofs.Script.Parameters

namespace QueueScript

namespace Command

def Uncounted (c : Command) : Prop :=
  c.maxMessages = none ∧ c.visibilityTimeout = none ∧ c.waitTime = none

def Bodiless (c : Command) : Prop := c.body = none ∧ c.bodyRange = none

structure WellFormed (c : Command) : Prop where
  target : Script.IsTarget c.target
  profile : c.profile ≠ ""
  region : c.region ≠ ""
  attributes : c.attributes = none
  send : c.kind = .send → c.Uncounted ∧ ∀ w ∈ c.warnings, w.isMalformed = true
  receive : c.kind = .receive → c.Bodiless ∧ ∀ w ∈ c.warnings, w.isMalformed = false
  purge : c.kind = .purge → c.Bodiless ∧ c.Uncounted ∧ c.warnings = []
  rising : c.warnings.Pairwise (fun v w => v.line < w.line)
  placed : ∀ w ∈ c.warnings, c.range.first < w.line ∧ w.line ≤ c.range.last

end Command

theorem ParameterKey.receive_of_appliesTo {key : ParameterKey} {kind : Kind}
    (hkey : key ≠ .profile ∧ key ≠ .region) (h : key.appliesTo kind = true) : kind = .receive := by
  cases key with
  | profile => exact absurd rfl hkey.1
  | region => exact absurd rfl hkey.2
  | maxMessages | visibilityTimeout | waitTime => simpa [appliesTo] using h

theorem ParameterKey.lastIn_eq_none {key : ParameterKey} {kind : Kind} {ps : List Parameter}
    (hps : ∀ p ∈ ps, p.key.appliesTo kind = true) (hkey : key ≠ .profile ∧ key ≠ .region)
    (hkind : kind ≠ .receive) : key.lastIn ps = none := by
  cases hp : key.lastIn ps with
  | none => rfl
  | some p =>
      obtain ⟨hmem, rfl⟩ := mem_of_lastIn hp
      exact absurd (receive_of_appliesTo hkey (hps p hmem)) hkind

theorem ParameterKey.getD_lastIn (key : ParameterKey) {P : String → Prop} {ps : List Parameter}
    {default : String} (hps : ∀ p ∈ ps, P p.value) (hdefault : P default) :
    P (((key.lastIn ps).map Parameter.value).getD default) := by
  cases hp : key.lastIn ps with
  | none => exact hdefault
  | some p => exact hps p (mem_of_lastIn hp).1

namespace Script

open Text (splitLines)

section

variable {lines : List Line} {kind : Kind} {r : LineRange} {p : Parameter}

theorem of_mem_requests (h : p ∈ requests lines kind r) :
    p.key.appliesTo kind = true ∧ ¬Text.Blank p.value := by
  obtain ⟨i, _, hi⟩ := List.mem_filterMap.mp h
  rw [request?] at hi
  split at hi
  · obtain ⟨⟨key, value⟩, hasked, rfl⟩ := Option.map_eq_some_iff.mp hi
    obtain ⟨l, _, hl⟩ := Option.bind_eq_some_iff.mp hasked
    obtain ⟨hl, happlies⟩ := Option.filter_eq_some_iff.mp hl
    exact ⟨happlies, not_blank_of_parameter? hl⟩
  · cases hi

theorem receive_of_refused (h : p ∈ requests lines kind r) (hp : ¬ p.Accepted) : kind = .receive := by
  refine ParameterKey.receive_of_appliesTo ⟨?_, ?_⟩ (of_mem_requests h).1
  · intro hkey
    exact hp (.inl hkey)
  · intro hkey
    exact hp (.inr (.inl hkey))

end

section

variable {lines : List Line} {j : Nat} {a : Draft} {w : Warning}

theorem Draft.Accounts.of_mem_parameters (h : a.Accounts lines j) {p : Parameter}
    (hp : p ∈ a.parameters) : p.key.appliesTo a.kind = true ∧ ¬Text.Blank p.value := by
  rw [h.parameters] at hp
  exact of_mem_requests (List.mem_of_mem_filter hp)

theorem Draft.Accounts.receive_of_mem_warnings (h : a.Accounts lines j) (hw : w ∈ a.warnings)
    (hform : w.isMalformed = false) : a.kind = .receive := by
  have hrefused : w ∈ a.warnings.filter (fun w => !w.isMalformed) :=
    List.mem_filter.mpr ⟨hw, by simp [hform]⟩
  rw [h.warnings] at hrefused
  obtain ⟨p, hp, _⟩ := List.mem_map.mp hrefused
  obtain ⟨hp, hnot⟩ := List.mem_filter.mp hp
  exact receive_of_refused hp (by simpa using hnot)

theorem Draft.Bodied.bodyRange_eq_none (h : a.Bodied lines j) (hk : a.kind ≠ .send) :
    a.bodyRange = none := by
  cases hr : a.bodyRange with
  | none => rfl
  | some r => exact absurd (h.present r hr).1 hk

theorem Draft.Bodied.send_of_mem_warnings (h : a.Bodied lines j) (hw : w ∈ a.warnings)
    (hform : w.isMalformed = true) : a.kind = .send := by
  by_contra hk
  have hmem : w ∈ a.warnings.filter Warning.isMalformed := List.mem_filter.mpr ⟨hw, hform⟩
  rw [(h.absent (h.bodyRange_eq_none hk)).2] at hmem
  cases hmem

end

def Rising (ws : List Warning) : Prop := ws.Pairwise (fun v w => v.line < w.line)

theorem Draft.rising_set {a : Draft} {p : Parameter} (h : Rising a.warnings)
    (hp : ∀ w ∈ a.warnings, w.line < p.line) : Rising (a.set p).warnings := by
  rw [warnings_set]
  split
  · rwa [List.append_nil]
  · exact pairwise_concat h hp

theorem Draft.rising_resolve {a : Draft} {b : OpenBody} (h : Rising a.warnings)
    (hb : ∀ w ∈ a.warnings, w.line < b.first) : Rising (a.resolve b).warnings := by
  cases hv : Json.parse b.text with
  | ok v =>
      rw [resolve_of_parse a hv]
      exact h
  | error e =>
      rw [resolve_of_error a hv]
      exact pairwise_concat h hb

namespace State

def Rising : State → Prop
  | .idle => True
  | .inBlock a => Script.Rising a.warnings
  | .inBody a b => Script.Rising a.warnings ∧ ∀ w ∈ a.warnings, w.line < b.first

theorem rising_advanceBody {a : Draft} {b : OpenBody} (h : Script.Rising a.warnings)
    (hb : ∀ w ∈ a.warnings, w.line < b.first) : (advanceBody a b).Rising := by
  rw [advanceBody]
  split
  · exact Draft.rising_resolve h hb
  · exact ⟨h, hb⟩

theorem rising_contentLine {i : Nat} {s : State} (line : Line) (hb : s.Before i) (h : s.Rising) :
    (s.contentLine i line).Rising := by
  cases s with
  | idle => trivial
  | inBlock a =>
      have hbefore : ∀ w ∈ a.warnings, w.line < i := fun w hw => (hb.warnings w hw).2
      simp only [contentLine, inBlockLine]
      split
      · exact Draft.rising_set h hbefore
      · split
        · exact rising_advanceBody h hbefore
        · exact h
  | inBody a b => exact rising_advanceBody h.1 h.2

theorem rising_invariant (d : Defaults) : Invariant d (fun i s => s.Before i ∧ s.Rising) where
  idle _ := ⟨trivial, trivial⟩
  start i k t := ⟨(before_invariant d).start i k t, .nil⟩
  content i line s h :=
    ⟨(before_invariant d).content i line s h.1, rising_contentLine line h.1 h.2⟩
  pass i s h := ⟨(before_invariant d).pass i s h.1, h.2⟩

end State

variable {d : Defaults} {text : String} {c : Command}

theorem rising_of_mem_parse (h : c ∈ parse d text) : Rising c.warnings := by
  have hidle : State.Before 0 .idle ∧ State.Rising .idle := ⟨trivial, trivial⟩
  obtain ⟨_, s, last, ⟨_, hs⟩, _, hclose⟩ := (State.rising_invariant d).exists_close hidle h
  cases s with
  | idle => cases hclose
  | inBlock a =>
      obtain rfl := Option.some.inj hclose
      exact hs
  | inBody a b =>
      obtain rfl := Option.some.inj hclose
      exact Draft.rising_resolve hs.1 hs.2

theorem isTarget_of_mem_parse (h : c ∈ parse d text) : IsTarget c.target := by
  have hmem : c.headline ∈ State.idle.opened.toList ++ headers 0 (splitLines text.toList) := by
    rw [← State.map_headline_scan d]
    exact List.mem_map_of_mem h
  obtain ⟨p, _, hp⟩ := List.mem_filterMap.mp hmem
  obtain ⟨⟨k, t⟩, hheader, heq⟩ := Option.map_eq_some_iff.mp hp
  obtain ⟨_, rfl⟩ := Prod.mk.inj (Prod.mk.inj heq).2
  exact isTarget_of_header? hheader

theorem bodiless_of_mem_parse (h : c ∈ parse d text) (hk : c.kind ≠ .send) : c.Bodiless := by
  obtain ⟨a, ha, hc, _⟩ := exists_bodied_of_mem_parse h
  rw [← hc] at hk ⊢
  have hrange := ha.bodyRange_eq_none hk
  exact ⟨(ha.absent hrange).1, hrange⟩

theorem uncounted_of_mem_parse (h : c ∈ parse d text) (hk : c.kind ≠ .receive) : c.Uncounted := by
  obtain ⟨a, last, ha, hfollows, rfl⟩ := exists_draft_of_mem_parse h
  have hnone {key : ParameterKey} (hkey : key ≠ .profile ∧ key ≠ .region) :
      key.lastIn a.parameters = none :=
    ParameterKey.lastIn_eq_none (fun p hp => (ha.of_mem_parameters hp).1) hkey hk
  refine ⟨hfollows.maxMessages.trans ?_, hfollows.visibilityTimeout.trans ?_,
    hfollows.waitTime.trans ?_⟩
  · rw [hnone (by decide), Option.bind_none]
  · rw [hnone (by decide), Option.bind_none]
  · rw [hnone (by decide), Option.bind_none]

theorem kind_of_mem_warnings (h : c ∈ parse d text) {w : Warning} (hw : w ∈ c.warnings) :
    c.kind = if w.isMalformed then .send else .receive := by
  cases hform : w.isMalformed with
  | true =>
      obtain ⟨a, ha, hc, _⟩ := exists_bodied_of_mem_parse h
      rw [← hc] at hw ⊢
      exact ha.send_of_mem_warnings hw hform
  | false =>
      obtain ⟨a, last, ha, _, rfl⟩ := exists_draft_of_mem_parse h
      exact ha.receive_of_mem_warnings hw hform

theorem forall_names_of_mem_parse {P : String → Prop} (hvalue : ∀ s, ¬Text.Blank s → P s)
    (h : c ∈ parse d text) (hprofile : P d.profile) (hregion : P d.region) :
    P c.profile ∧ P c.region := by
  obtain ⟨a, last, ha, hfollows, rfl⟩ := exists_draft_of_mem_parse h
  have hvalues : ∀ p ∈ a.parameters, P p.value :=
    fun p hp => hvalue _ (ha.of_mem_parameters hp).2
  constructor
  · change P a.profile
    rw [hfollows.profile]
    exact ParameterKey.profile.getD_lastIn hvalues hprofile
  · change P a.region
    rw [hfollows.region]
    exact ParameterKey.region.getD_lastIn hvalues hregion

theorem named_of_mem_parse (h : c ∈ parse d text) (hprofile : d.profile ≠ "")
    (hregion : d.region ≠ "") : c.profile ≠ "" ∧ c.region ≠ "" := by
  have hvalue : ∀ s : String, ¬Text.Blank s → s ≠ "" := by
    rintro _ hblank rfl
    exact hblank nofun
  exact forall_names_of_mem_parse (P := (· ≠ "")) hvalue h hprofile hregion

theorem parse_wellFormed (hprofile : d.profile ≠ "") (hregion : d.region ≠ "")
    (h : c ∈ parse d text) : c.WellFormed where
  target := isTarget_of_mem_parse h
  profile := (named_of_mem_parse h hprofile hregion).1
  region := (named_of_mem_parse h hprofile hregion).2
  attributes := by
    obtain ⟨a, last, _, _, rfl⟩ := exists_draft_of_mem_parse h
    rfl
  send hk := by
    refine ⟨uncounted_of_mem_parse h (by simp [hk]), ?_⟩
    intro w hw
    have hkind := kind_of_mem_warnings h hw
    by_contra hform
    simp [hk, hform] at hkind
  receive hk := by
    refine ⟨bodiless_of_mem_parse h (by simp [hk]), ?_⟩
    intro w hw
    have hkind := kind_of_mem_warnings h hw
    by_contra hform
    simp [hk, hform] at hkind
  purge hk := by
    refine ⟨bodiless_of_mem_parse h (by simp [hk]), uncounted_of_mem_parse h (by simp [hk]), ?_⟩
    refine List.eq_nil_iff_forall_not_mem.mpr ?_
    intro w hw
    have hkind := kind_of_mem_warnings h hw
    rw [hk] at hkind
    split at hkind <;> cases hkind
  rising := rising_of_mem_parse h
  placed := (placed_of_mem_parse h).warnings

theorem parse_wellFormed_late_warnings :
    let d : Defaults := ⟨"p", "eu"⟩
    let text := "SEND q\n\x7b]\x7d\nwait-time: x\n\x7b\nRECEIVE r\nwait-time: x\n\x7b\nwait-time: -1\n" ++
      "PURGE s\nwait-time: x"
    d.profile ≠ "" ∧ d.region ≠ "" ∧
      (parse d text).map (fun c => (c.kind, c.warnings.map Warning.line)) =
        [(.send, [1, 3]), (.receive, [5, 7]), (.purge, [])] ∧
      ((parse d text).get ⟨0, by decide⟩).WellFormed ∧
      ((parse d text).get ⟨1, by decide⟩).WellFormed := by
  intro d text
  have hprofile : d.profile ≠ "" := by decide
  have hregion : d.region ≠ "" := by decide
  exact ⟨hprofile, hregion, by decide, parse_wellFormed hprofile hregion (List.get_mem _ _),
    parse_wellFormed hprofile hregion (List.get_mem _ _)⟩

end Script

end QueueScript
