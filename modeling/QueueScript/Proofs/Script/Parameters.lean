import QueueScript.Proofs.Script.Body
import QueueScript.Proofs.Script.Ending
import QueueScript.Proofs.Script.Setting

namespace QueueScript

def ParameterKey.lastIn (key : ParameterKey) (ps : List Parameter) : Option Parameter :=
  (ps.filter (fun p => p.key = key)).getLast?

theorem ParameterKey.lastIn_concat (key : ParameterKey) (ps : List Parameter) (p : Parameter) :
    key.lastIn (ps ++ [p]) = if p.key = key then some p else key.lastIn ps := by
  by_cases h : p.key = key <;> simp [lastIn, h]

theorem ParameterKey.mem_of_lastIn {key : ParameterKey} {ps : List Parameter} {p : Parameter}
    (h : key.lastIn ps = some p) : p ∈ ps ∧ p.key = key := by
  simpa using List.mem_of_getLast? h

namespace Script

open OpenBody (braceBalance)
open State (advanceBody)
open Text (trim splitLines)

/-- How many braces are open after a line of a block. None are where no body is open, and only a line
that starts with a brace opens one. -/
def depthAfter (kind : Kind) (depth : Nat) (l : Line) : Nat :=
  if isNote l then depth
  else if depth ≠ 0 ∨ (kind = .send ∧ (trim l).head? = some '{') then
    ((depth : Int) + braceBalance l).toNat
  else 0

def depthAt (lines : List Line) (kind : Kind) (first i : Nat) : Nat :=
  ((lines.take i).drop (first + 1)).foldl (depthAfter kind) 0

/-- The parameter that the line `i` asks for. Inside a body it asks for none. -/
def request? (lines : List Line) (kind : Kind) (first i : Nat) : Option Parameter :=
  if depthAt lines kind first i = 0 then
    (lines[i]?.bind (fun l => (parameter? (trim l)).filter (fun p => p.1.appliesTo kind))).map
      (fun p => ⟨p.1, p.2, i⟩)
  else none

def requests (lines : List Line) (kind : Kind) (r : LineRange) : List Parameter :=
  (List.range' (r.first + 1) (r.last - r.first)).filterMap (request? lines kind r.first)

variable {lines : List Line} {kind : Kind} {first j : Nat} {l : Line}

theorem depthAt_start (lines : List Line) (kind : Kind) (first : Nat) :
    depthAt lines kind first (first + 1) = 0 := by
  rw [depthAt, List.drop_eq_nil_of_le (List.length_take_le ..)]
  rfl

theorem depthAt_succ (hl : lines[j]? = some l) (hfirst : first < j) :
    depthAt lines kind first (j + 1) = depthAfter kind (depthAt lines kind first j) l := by
  have hj : j < lines.length := (List.getElem?_eq_some_iff.mp hl).1
  have hlength : first + 1 ≤ (lines.take j).length := by
    rw [List.length_take_of_le (Nat.le_of_lt hj)]
    exact hfirst
  rw [depthAt, List.take_add_one, hl, Option.toList_some, List.drop_append_of_le_length hlength,
    List.foldl_append]
  rfl

theorem requests_start (lines : List Line) (kind : Kind) (first : Nat) :
    requests lines kind ⟨first, first⟩ = [] := by
  simp [requests]

theorem requests_succ (hfirst : first < j) :
    requests lines kind ⟨first, j⟩ =
      requests lines kind ⟨first, j - 1⟩ ++ (request? lines kind first j).toList := by
  have hcount : j - first = (j - 1 - first) + 1 := by omega
  have hlast : first + 1 + (j - 1 - first) = j := by omega
  simp only [requests]
  rw [hcount, List.range'_concat, List.filterMap_append, Nat.one_mul, hlast]
  cases hp : request? lines kind first j <;> simp [hp]

theorem parameter?_of_isNote (h : isNote l = true) : parameter? (trim l) = none := by
  cases hp : parameter? (trim l) with
  | none => rfl
  | some p =>
      obtain ⟨key, value⟩ := p
      have hhead := head?_of_parameter? hp
      simp only [isNote, Bool.or_eq_true, beq_iff_eq] at h
      rcases h with h | h
      · rw [h] at hp
        cases hp
      · rw [h] at hhead
        exact absurd rfl (head?_name key hhead.symm).2.1

theorem request?_of_none (hl : lines[j]? = some l)
    (hp : (parameter? (trim l)).filter (fun p => p.1.appliesTo kind) = none) :
    request? lines kind first j = none := by
  simp [request?, hl, hp]

structure Draft.Accounts (lines : List Line) (j : Nat) (a : Draft) : Prop where
  parameters : a.parameters =
    (requests lines a.kind ⟨a.first, j - 1⟩).filter (fun p => p.Accepted)
  warnings : a.warnings.filter (fun w => !w.isMalformed) =
    ((requests lines a.kind ⟨a.first, j - 1⟩).filter (fun p => ¬p.Accepted)).map Parameter.refusal

namespace Draft.Accounts

variable {a : Draft} {b : OpenBody}

theorem start (d : Defaults) (k : Kind) (t : String) (j : Nat) :
    (Draft.start d k t j).Accounts lines (j + 1) := by
  have hrequests : requests lines (Draft.start d k t j).kind
      ⟨(Draft.start d k t j).first, j + 1 - 1⟩ = [] := requests_start lines k j
  refine ⟨?_, ?_⟩
  · rw [hrequests]
    rfl
  · rw [hrequests]
    rfl

theorem pass (h : a.Accounts lines j) (hfirst : a.first < j)
    (hnone : request? lines a.kind a.first j = none) : a.Accounts lines (j + 1) := by
  have hrequests : requests lines a.kind ⟨a.first, j + 1 - 1⟩ =
      requests lines a.kind ⟨a.first, j - 1⟩ := by
    rw [Nat.add_sub_cancel, requests_succ hfirst, hnone, Option.toList_none, List.append_nil]
  refine ⟨?_, ?_⟩
  · rw [hrequests]
    exact h.parameters
  · rw [hrequests]
    exact h.warnings

theorem set (h : a.Accounts lines j) (hfirst : a.first < j) {p : Parameter}
    (hp : request? lines a.kind a.first j = some p) : (a.set p).Accounts lines (j + 1) := by
  obtain ⟨hkind, hstart, _⟩ := a.frame_set p
  have hrequests : requests lines a.kind ⟨a.first, j + 1 - 1⟩ =
      requests lines a.kind ⟨a.first, j - 1⟩ ++ [p] := by
    rw [Nat.add_sub_cancel, requests_succ hfirst, hp, Option.toList_some]
  refine ⟨?_, ?_⟩
  · rw [parameters_set, hkind, hstart, hrequests, List.filter_append, ← h.parameters]
    by_cases ha : p.Accepted <;> simp [ha]
  · rw [warnings_set, hkind, hstart, hrequests, List.filter_append, List.filter_append,
      List.map_append, h.warnings]
    by_cases ha : p.Accepted <;> simp [ha, Parameter.refusal, Warning.isMalformed]

theorem resolve (h : a.Accounts lines j) (b : OpenBody) : (a.resolve b).Accounts lines j := by
  rw [Draft.resolve]
  dsimp only
  split
  · exact ⟨h.parameters, h.warnings⟩
  · rename_i e _
    have hwarnings : (a.warnings ++ [Warning.malformedBody b.first e.message]).filter
        (fun w => !w.isMalformed) = a.warnings.filter (fun w => !w.isMalformed) := by
      simp [Warning.isMalformed]
    exact ⟨h.parameters, hwarnings.trans h.warnings⟩

end Draft.Accounts

def State.Accounts (lines : List Line) (j : Nat) : State → Prop
  | .idle => True
  | .inBlock a => a.Accounts lines j ∧ depthAt lines a.kind a.first j = 0
  | .inBody a b => a.Accounts lines j ∧ (depthAt lines a.kind a.first j : Int) = b.depth ∧
      0 < b.depth

theorem State.accounts_advanceBody {a : Draft} {b : OpenBody} (h : a.Accounts lines j)
    (hdepth : depthAt lines a.kind a.first j = b.depth.toNat) :
    (advanceBody a b).Accounts lines j := by
  obtain ⟨hkind, hfirst, _⟩ := a.frame_resolve b
  rw [advanceBody]
  split
  · rename_i hclosed
    have hclosed : b.depth ≤ 0 := by simpa [OpenBody.isClosed] using hclosed
    refine ⟨h.resolve b, ?_⟩
    rw [hkind, hfirst, hdepth]
    omega
  · rename_i hopen
    have hopen : 0 < b.depth := by simpa [OpenBody.isClosed] using hopen
    refine ⟨h, ?_, hopen⟩
    omega

theorem State.accounts_inBlockLine {a : Draft} (hfirst : a.first < j) (h : a.Accounts lines j)
    (hdepth : depthAt lines a.kind a.first j = 0) (hl : lines[j]? = some l)
    (hn : isNote l = false) : (inBlockLine a j l).Accounts lines (j + 1) := by
  have hnext : depthAt lines a.kind a.first (j + 1) =
      depthAfter a.kind (depthAt lines a.kind a.first j) l := depthAt_succ hl hfirst
  simp only [hdepth, depthAfter, hn] at hnext
  simp only [inBlockLine]
  split
  · rename_i key value hp
    obtain ⟨hkind, hstart, _⟩ := a.frame_set ⟨key, value, j⟩
    have hrequest : request? lines a.kind a.first j = some ⟨key, value, j⟩ := by
      simp [request?, hdepth, hl, hp]
    have hbrace : (trim l).head? ≠ some '{' := by
      intro hb
      rw [parameter?_of_brace hb] at hp
      cases hp
    refine ⟨h.set hfirst hrequest, ?_⟩
    rw [hkind, hstart, hnext]
    simp [hbrace]
  · rename_i hp
    have hpass := h.pass hfirst (request?_of_none hl hp)
    split
    · rename_i hbrace
      refine accounts_advanceBody hpass ?_
      rw [hnext]
      simp [hbrace, OpenBody.start]
    · rename_i hbrace
      refine ⟨hpass, ?_⟩
      rw [hnext]
      simp [hbrace]

theorem State.accounts_reading (d : Defaults) (lines : List Line) :
    Reading d lines (fun j s => s.Before j ∧ s.Accounts lines j) where
  idle j := ⟨trivial, trivial⟩
  start j k t := ⟨(before_invariant d).start j k t, .start d k t j, depthAt_start lines k j⟩
  content j l s hl hc h := by
    obtain ⟨hbefore, h⟩ := h
    have hn := isNote_of_content hc
    refine ⟨(before_invariant d).content j l s hbefore, ?_⟩
    cases s with
    | idle => trivial
    | inBlock a => exact accounts_inBlockLine hbefore.first h.1 h.2 hl hn
    | inBody a b =>
        obtain ⟨ha, hdepth, hopen⟩ := h
        have hne : depthAt lines a.kind a.first j ≠ 0 := by omega
        have hrequest : request? lines a.kind a.first j = none := if_neg hne
        refine accounts_advanceBody (ha.pass hbefore.1.first hrequest) ?_
        rw [depthAt_succ hl hbefore.1.first]
        simp [depthAfter, hn, hne, hdepth, OpenBody.push]
  pass j l s hl hn h := by
    obtain ⟨hbefore, h⟩ := h
    have hp : parameter? (trim l) = none := parameter?_of_isNote hn
    have hdepth {kind : Kind} {first : Nat} (hfirst : first < j) :
        depthAt lines kind first (j + 1) = depthAt lines kind first j := by
      rw [depthAt_succ hl hfirst]
      simp [depthAfter, hn]
    have hrequest (kind : Kind) (first : Nat) : request? lines kind first j = none :=
      request?_of_none hl (by rw [hp]; rfl)
    refine ⟨(before_invariant d).pass j s hbefore, ?_⟩
    cases s with
    | idle => trivial
    | inBlock a =>
        exact ⟨h.1.pass hbefore.first (hrequest ..), (hdepth hbefore.first).trans h.2⟩
    | inBody a b =>
        refine ⟨h.1.pass hbefore.1.first (hrequest ..), ?_, h.2.2⟩
        rw [hdepth hbefore.1.first]
        exact h.2.1

structure Draft.Follows (d : Defaults) (a : Draft) : Prop where
  profile : a.profile =
    ((ParameterKey.profile.lastIn a.parameters).map Parameter.value).getD d.profile
  region : a.region =
    ((ParameterKey.region.lastIn a.parameters).map Parameter.value).getD d.region
  maxMessages : a.maxMessages =
    (ParameterKey.maxMessages.lastIn a.parameters).bind (fun p => Text.count? p.value.toList)
  visibilityTimeout : a.visibilityTimeout =
    (ParameterKey.visibilityTimeout.lastIn a.parameters).bind (fun p => Text.count? p.value.toList)
  waitTime : a.waitTime =
    (ParameterKey.waitTime.lastIn a.parameters).bind (fun p => Text.count? p.value.toList)

theorem Draft.Follows.set {d : Defaults} {a : Draft} (h : a.Follows d) (p : Parameter) :
    (a.set p).Follows d := by
  obtain ⟨hprofile, hregion, hmax, hvisibility, hwait⟩ := h
  obtain ⟨key, value, line⟩ := p
  cases key <;> simp only [Draft.set, Draft.setCount]
  case profile => constructor <;> simp [record, ParameterKey.lastIn_concat, *]
  case region => constructor <;> simp [record, ParameterKey.lastIn_concat, *]
  all_goals
    cases hv : Text.count? value.toList with
    | none => exact ⟨hprofile, hregion, hmax, hvisibility, hwait⟩
    | some n => constructor <;> simp [record, ParameterKey.lastIn_concat, *]

theorem Draft.Follows.resolve {d : Defaults} {a : Draft} (h : a.Follows d) (b : OpenBody) :
    (a.resolve b).Follows d := by
  rw [Draft.resolve]
  dsimp only
  split <;> exact ⟨h.profile, h.region, h.maxMessages, h.visibilityTimeout, h.waitTime⟩

def State.Follows (d : Defaults) : State → Prop
  | .idle => True
  | .inBlock a => a.Follows d
  | .inBody a _ => a.Follows d

theorem State.follows_advanceBody {d : Defaults} {a : Draft} (h : a.Follows d) (b : OpenBody) :
    (advanceBody a b).Follows d := by
  rw [advanceBody]
  split
  · exact h.resolve b
  · exact h

theorem State.follows_invariant (d : Defaults) : Invariant d (fun _ s => s.Follows d) where
  idle _ := trivial
  start _ _ _ := ⟨rfl, rfl, rfl, rfl, rfl⟩
  content j l s h := by
    cases s with
    | idle => trivial
    | inBody a b => exact follows_advanceBody h _
    | inBlock a =>
        simp only [contentLine, inBlockLine]
        split
        · exact Draft.Follows.set h _
        · split
          · exact follows_advanceBody h _
          · exact h
  pass _ _ h := h

theorem exists_draft_of_mem_parse {d : Defaults} {text : String} {c : Command}
    (h : c ∈ parse d text) :
    ∃ (a : Draft) (last : Nat), a.Accounts (splitLines text.toList) (last + 1) ∧ a.Follows d ∧
      c = a.finish last := by
  obtain ⟨s, hends, ⟨_, haccounts⟩, hfollows⟩ :=
    ((State.accounts_reading d _).and ((State.follows_invariant d).reading _)).exists_ends h
  have hclose := hends.close
  cases s with
  | idle => cases hclose
  | inBlock a => exact ⟨a, _, haccounts.1, hfollows, (Option.some.inj hclose).symm⟩
  | inBody a b =>
      exact ⟨a.resolve b, _, haccounts.1.resolve b, Draft.Follows.resolve hfollows b,
        (Option.some.inj hclose).symm⟩

theorem rel_lastIn {key : ParameterKey} {ps : List Parameter} {count : Option UInt32}
    (hkey : key ≠ .profile ∧ key ≠ .region) (hps : ∀ p ∈ ps, p.Accepted)
    (hcount : count = (key.lastIn ps).bind (fun p => Text.count? p.value.toList)) :
    Option.Rel (fun n p => Text.Numeral p.value.toList n.toNat) count (key.lastIn ps) := by
  rw [hcount]
  cases hp : key.lastIn ps with
  | none => exact .none
  | some p =>
      obtain ⟨hmem, rfl⟩ := ParameterKey.mem_of_lastIn hp
      obtain ⟨n, hn⟩ := (hps p hmem).exists_count hkey
      rw [Option.bind_some, hn]
      exact .some (Text.count?_eq_some_iff.mp hn)

theorem parse_parameters (d : Defaults) (text : String) {c : Command} (h : c ∈ parse d text) :
    let asked := requests (splitLines text.toList) c.kind c.range
    let stands (n : UInt32) (p : Parameter) := Text.Numeral p.value.toList n.toNat
    c.parameters = asked.filter (fun p => p.Accepted) ∧
      c.warnings.filter (fun w => !w.isMalformed) =
        (asked.filter (fun p => ¬p.Accepted)).map Parameter.refusal ∧
      c.profile = ((ParameterKey.profile.lastIn c.parameters).map Parameter.value).getD d.profile ∧
      c.region = ((ParameterKey.region.lastIn c.parameters).map Parameter.value).getD d.region ∧
      Option.Rel stands c.maxMessages (ParameterKey.maxMessages.lastIn c.parameters) ∧
      Option.Rel stands c.visibilityTimeout
        (ParameterKey.visibilityTimeout.lastIn c.parameters) ∧
      Option.Rel stands c.waitTime (ParameterKey.waitTime.lastIn c.parameters) := by
  intro asked stands
  obtain ⟨a, last, ⟨hparameters, hwarnings⟩, hfollows, rfl⟩ := exists_draft_of_mem_parse h
  rw [Nat.add_sub_cancel] at hparameters hwarnings
  have haccepted : ∀ p ∈ a.parameters, p.Accepted := by
    intro p hp
    rw [hparameters] at hp
    simpa using (List.mem_filter.mp hp).2
  refine ⟨hparameters, hwarnings, hfollows.profile, hfollows.region, ?_, ?_, ?_⟩
  · exact rel_lastIn (by decide) haccepted hfollows.maxMessages
  · exact rel_lastIn (by decide) haccepted hfollows.visibilityTimeout
  · exact rel_lastIn (by decide) haccepted hfollows.waitTime

theorem parse_parameters_refused_between :
    let d : Defaults := ⟨"p", "eu"⟩
    let text := "SEND q\n\x7b\nprofile: b\n\x7d\nprofile: a\nwait-time: 5\n" ++
      "RECEIVE r\nwait-time: 9\nwait-time: +07\nwait-time: 4294967296"
    (parse d text).map (fun c => (c.kind, c.range)) = [(.send, ⟨0, 5⟩), (.receive, ⟨6, 9⟩)] ∧
      (∀ c ∈ (parse d text).head?, c.parameters = [⟨.profile, "a", 4⟩] ∧ c.profile = "a") ∧
      ∀ c ∈ (parse d text).getLast?,
        c.parameters = [⟨.waitTime, "9", 7⟩, ⟨.waitTime, "+07", 8⟩] ∧
          c.warnings.filter (fun w => !w.isMalformed) =
            [.invalidNumber "wait-time" "4294967296" 9] ∧
          ∃ n, c.waitTime = some n ∧ Text.Numeral "+07".toList n.toNat := by
  intro d text
  refine ⟨by decide, ?_, ?_⟩
  · intro c hc
    have hblock : ∀ c ∈ (parse d text).head?, c.kind = .send ∧ c.range = ⟨0, 5⟩ := by decide
    obtain ⟨hkind, hrange⟩ := hblock c hc
    obtain ⟨hparameters, _, hprofile, _⟩ := parse_parameters d text (List.mem_of_head? hc)
    have hlist : c.parameters = [⟨.profile, "a", 4⟩] := by
      rw [hparameters, hkind, hrange]
      decide
    rw [hlist] at hprofile
    exact ⟨hlist, hprofile⟩
  · intro c hc
    have hblock : ∀ c ∈ (parse d text).getLast?, c.kind = .receive ∧ c.range = ⟨6, 9⟩ := by decide
    obtain ⟨hkind, hrange⟩ := hblock c hc
    obtain ⟨hparameters, hwarnings, _, _, _, _, hwait⟩ :=
      parse_parameters d text (List.mem_of_getLast? hc)
    have hlist : c.parameters = [⟨.waitTime, "9", 7⟩, ⟨.waitTime, "+07", 8⟩] := by
      rw [hparameters, hkind, hrange]
      decide
    have hrefused : c.warnings.filter (fun w => !w.isMalformed) =
        [.invalidNumber "wait-time" "4294967296" 9] := by
      rw [hwarnings, hkind, hrange]
      decide
    have hlast : ParameterKey.waitTime.lastIn c.parameters = some ⟨.waitTime, "+07", 8⟩ := by
      rw [hlist]
      decide
    rw [hlast] at hwait
    cases hn : c.waitTime with
    | none => rw [hn] at hwait; cases hwait
    | some n =>
        rw [hn] at hwait
        cases hwait with
        | some hstands => exact ⟨hlist, hrefused, n, rfl, hstands⟩

end Script

end QueueScript
