import QueueScript.CommandLine.Run
import QueueScript.Proofs.Command.Data
import QueueScript.Proofs.Json.Canonical
import QueueScript.Proofs.Script.Body
import QueueScript.Proofs.Script.Places

namespace QueueScript.Script

open Json (skipSpace isSpace isToken)
open Text (trimStart isBlank)

theorem object_of_parse {s : List Char} {v : Json} (h : Json.parse s = .ok v)
    (hs : (trimStart s).head? = some '{') : ∃ ms, v = .object ms := by
  obtain ⟨r, h, _⟩ := Json.parse_eq_ok_iff.mp h
  -- documents know more blanks than JSON does, but the reader would have refused the others
  have hstart {c : Char} {t : List Char} (hskip : skipSpace s = c :: t) (hc : isBlank c = false) :
      c = '{' := by
    rw [trimStart_of_skipSpace hskip hc] at hs
    exact Option.some.inj hs
  rcases Json.readValue_cases h with ⟨q, hq, hne, ht, _⟩ | ⟨t, _, hq, _, _⟩ | ⟨_, t, _, _, hq, _, _⟩ |
    ⟨_, _, ms, _, _, _, rfl⟩
  · obtain ⟨c, q, rfl⟩ := List.exists_cons_of_ne_nil hne
    have hc := ht c (List.mem_cons_self ..)
    have hspace : isSpace c = false := Json.isSpace_of_skipSpace hq
    obtain rfl := hstart hq (isBlank_of_isToken hc hspace)
    cases hc
  · exact absurd (hstart hq (by decide)) (by decide)
  · exact absurd (hstart hq (by decide)) (by decide)
  · exact ⟨ms, rfl⟩

def Draft.HoldsObject (a : Draft) : Prop :=
  ∀ v, a.body = some v → ∃ s ms, Json.parse s = .ok v ∧ v = .object ms

theorem Draft.body_set (a : Draft) (p : Parameter) : (a.set p).body = a.body := by
  have hcount {store : UInt32 → Draft} (hstore : ∀ n, (store n).body = a.body) :
      (a.setCount p store).body = a.body := by
    rw [setCount]
    split
    · exact hstore _
    · rfl
  rw [set]
  split
  · rfl
  · rfl
  · exact hcount (fun _ => rfl)
  · exact hcount (fun _ => rfl)
  · exact hcount (fun _ => rfl)

def OpenBody.Braced (b : OpenBody) : Prop := (trimStart b.text).head? = some '{'

theorem OpenBody.braced_start {i : Nat} {line : Line} (h : (Text.trim line).head? = some '{') :
    (start i line).Braced := by
  rw [Text.head?_trim] at h
  exact h

theorem OpenBody.Braced.push {b : OpenBody} (h : b.Braced) (i : Nat) (line : Line) :
    (b.push i line).Braced := by
  have htrim : trimStart b.text ≠ [] := by
    intro hnil
    rw [Braced, hnil] at h
    cases h
  have hlines : b.lines ≠ [] := by
    intro hnil
    rw [text, hnil] at htrim
    exact htrim rfl
  obtain ⟨r, hr⟩ := Text.exists_joinLines_append hlines [line]
  have htext : (b.push i line).text = b.text ++ r := hr
  rw [Braced, htext, Text.head?_trimStart_append htrim]
  exact h

theorem Draft.holdsObject_resolve {a : Draft} {b : OpenBody} (hb : b.Braced) :
    (a.resolve b).HoldsObject := by
  intro v hv
  rw [resolve] at hv
  dsimp only at hv
  split at hv
  · rename_i w hw
    obtain rfl := Option.some.inj hv
    obtain ⟨ms, rfl⟩ := object_of_parse hw hb
    exact ⟨b.text, ms, hw, rfl⟩
  · cases hv

def State.HoldsObject : State → Prop
  | .idle => True
  | .inBlock a => a.HoldsObject
  | .inBody _ b => b.Braced

theorem State.holdsObject_advanceBody {a : Draft} {b : OpenBody} (hb : b.Braced) :
    (advanceBody a b).HoldsObject := by
  rw [advanceBody]
  split
  · exact Draft.holdsObject_resolve hb
  · exact hb

theorem State.holdsObject_invariant (d : Defaults) : Invariant d (fun _ s => s.HoldsObject) where
  idle _ := trivial
  start i k t := by
    intro v hv
    cases hv
  content i line s h := by
    cases s with
    | idle => trivial
    | inBlock a =>
        simp only [contentLine, inBlockLine]
        split
        · intro v hv
          rw [Draft.body_set] at hv
          exact h v hv
        · split
          · rename_i hbrace
            exact holdsObject_advanceBody (OpenBody.braced_start hbrace.2)
          · exact h
    | inBody a b => exact holdsObject_advanceBody (h.push i line)
  pass _ _ h := h

theorem exists_finish_of_mem_parse {d : Defaults} {text : String} {c : Command}
    (h : c ∈ parse d text) : ∃ a last, a.HoldsObject ∧ c = Draft.finish a last := by
  have hidle : State.HoldsObject .idle := trivial
  obtain ⟨_, s, last, hs, _, hclose⟩ := (State.holdsObject_invariant d).exists_close hidle h
  cases s with
  | idle => cases hclose
  | inBlock a => exact ⟨a, last, hs, (Option.some.inj hclose).symm⟩
  | inBody a b => exact ⟨a.resolve b, last, Draft.holdsObject_resolve hs, (Option.some.inj hclose).symm⟩

theorem storable_of_mem_parse {d : Defaults} {text : String} {c : Command} (h : c ∈ parse d text)
    (hlines : (Text.splitLines text.toList).length ≤ Json.lineLimit)
    (hplain : ∀ v, c.body = some v → v.Plain (Json.maxDepth - 2)) : c.Storable := by
  obtain ⟨hfirst, hlast⟩ := range_of_mem_parse h
  have hplaced := placed_of_mem_parse h
  obtain ⟨a, last, hobject, hc⟩ := exists_finish_of_mem_parse h
  have hbody : c.body = a.body := by rw [hc]; rfl
  have hattributes : c.attributes = none := by rw [hc]; rfl
  constructor
  · intro v hv
    obtain ⟨s, ms, hparse, rfl⟩ := hobject v (hbody ▸ hv)
    obtain ⟨r, hread, _⟩ := Json.parse_eq_ok_iff.mp hparse
    exact ⟨by simp, Json.exact_of_read ⟨s, r, hread⟩ (hplain _ hv)⟩
  · intro v hv
    rw [hattributes] at hv
    cases hv
  · exact ⟨by omega, by omega⟩
  · intro r hr
    obtain ⟨_, hle, hend⟩ := hplaced.body r hr
    exact ⟨by omega, by omega⟩
  · intro p hp
    have hp := (hplaced.parameters p hp).2
    omega
  · intro w hw
    have hw := (hplaced.warnings w hw).2
    omega

theorem parse_reread (d : Defaults) (text : String)
    (hlines : (Text.splitLines text.toList).length ≤ Json.lineLimit)
    (hplain : ∀ c ∈ parse d text, ∀ v, c.body = some v → v.Plain 125) :
    Command.readAll (Json.compact (.array ((parse d text).map Command.toJson))) = .ok (parse d text) ∧
      Command.readAll (Json.indented (.array ((parse d text).map Command.toJson))) =
        .ok (parse d text) ∧
      ∀ (job : CommandLine.Job) (settings : Settings), job.action = .parse → settings.defaults = d →
        Command.readAll (job.exit settings text).stdout = .ok (parse d text) := by
  have hstorable : ∀ c ∈ parse d text, c.Storable :=
    fun c hc => storable_of_mem_parse hc hlines (hplain c hc)
  have hcompact := Command.readAll_write Json.Style.blank_compact hstorable Json.Spaces.nil
  have hindented := Command.readAll_write Json.Style.blank_indented hstorable Json.Spaces.nil
  rw [List.append_nil] at hcompact hindented
  refine ⟨hcompact, hindented, ?_⟩
  rintro job settings hjob rfl
  have hfeed := Command.readAll_write Json.Style.blank_indented hstorable Json.Spaces.nil.feed
  have hstdout : (job.exit settings text).stdout =
      String.ofList (Json.write .indented 0 (.array ((parse settings.defaults text).map Command.toJson)) ++
        ['\n']) := by
    rw [String.ofList_append, CommandLine.Job.exit]
    simp only [hjob]
    rfl
  rw [hstdout]
  exact hfeed

theorem parse_reread_with_warning :
    let d : Defaults := ⟨"dev", "eu"⟩
    let text := "SEND q\nprofile: \"p\"\n\x7b\"k\": [-1, \x7b\x7d]\x7d\n###\nRECEIVE q\nwait-time: x"
    let job : CommandLine.Job := ⟨.parse, "f", {}⟩
    let settings : Settings := { defaultProfile := "dev", defaultRegion := "eu" }
    let read : List Command :=
      [{ kind := .send
         target := "q"
         profile := "\"p\""
         region := "eu"
         body := some (.object [("k", .array [.number (.whole (-1)), .object []])])
         attributes := none
         maxMessages := none
         visibilityTimeout := none
         waitTime := none
         range := ⟨0, 3⟩
         bodyRange := some ⟨2, 2⟩
         parameters := [⟨.profile, "\"p\"", 1⟩]
         warnings := [] },
       { kind := .receive
         target := "q"
         profile := "dev"
         region := "eu"
         body := none
         attributes := none
         maxMessages := none
         visibilityTimeout := none
         waitTime := none
         range := ⟨4, 5⟩
         bodyRange := none
         parameters := []
         warnings := [.invalidNumber "wait-time" "x" 5] }]
    parse d text = read ∧ (Text.splitLines text.toList).length ≤ Json.lineLimit ∧
      (∀ c ∈ parse d text, ∀ v, c.body = some v → v.Plain 125) ∧
      Command.readAll (Json.compact (.array (read.map Command.toJson))) = .ok read ∧
      Command.readAll (job.exit settings text).stdout = .ok read := by
  intro d text job settings read
  have hparse : parse d text = read := by
    dsimp only [d, text, read]
    rfl
  have hlines : (Text.splitLines text.toList).length ≤ Json.lineLimit := by decide
  have hplain : ∀ c ∈ parse d text, ∀ v, c.body = some v → v.Plain 125 := by
    rw [hparse]
    intro c hc v hv
    simp only [read, List.mem_cons, List.not_mem_nil, or_false] at hc
    rcases hc with rfl | rfl
    · obtain rfl := Option.some.inj hv
      refine .object ?_
      simp only [List.mem_singleton, forall_eq]
      refine .array ?_
      simp only [List.mem_cons, List.not_mem_nil, or_false, forall_eq_or_imp, forall_eq]
      exact ⟨.whole, .object (by simp)⟩
    · cases hv
  obtain ⟨hcompact, _, hprinted⟩ := parse_reread d text hlines hplain
  refine ⟨hparse, hlines, hplain, ?_, ?_⟩
  · rw [← hparse]
    exact hcompact
  · rw [← hparse]
    exact hprinted job settings rfl rfl

end QueueScript.Script
