import QueueScript.Command.Data
import QueueScript.Proofs.Json.Typed

namespace QueueScript

open Json
open Json.Record (gathers_field)

variable {style : Style} {depth : Nat}

namespace LineRange

def Fits (r : LineRange) : Prop := r.first < lineLimit ∧ r.last < lineLimit

theorem readsPadded_toJson (hs : style.Blank) {r : LineRange} (h : r.Fits) :
    ReadsPadded style depth record.read r.toJson r := by
  refine Record.readsPadded (d := ⟨some r.first, some r.last⟩) hs ?_ rfl
  apply gathers_field hs rfl rfl (readsPadded_line h.1)
  apply gathers_field hs rfl rfl (readsPadded_line h.2)
  exact .nil

end LineRange

theorem Parameter.readsPadded_toJson (hs : style.Blank) {p : Parameter} (h : p.line < lineLimit) :
    ReadsPadded style depth record.read p.toJson p := by
  have hkey : (ParameterKey.all.map (fun k => (k.name, k))).lookup p.key.name = some p.key := by
    cases p.key <;> rfl
  refine Record.readsPadded (d := ⟨some p.key, some p.value, some p.line⟩) hs ?_ rfl
  apply gathers_field hs rfl rfl (readsPadded_choice hkey)
  apply gathers_field hs rfl rfl (readsPadded_text p.value)
  apply gathers_field hs rfl rfl (readsPadded_line h)
  exact .nil

theorem Warning.readsPadded_toJson (hs : style.Blank) {w : Warning} (h : w.line < lineLimit) :
    ReadsPadded style depth read w.toJson w := by
  cases w with
  | malformedBody line message =>
      apply readsPadded_tagged hs rfl
      refine Record.readsPadded (d := ⟨none, some message, some line⟩) hs ?_ rfl
      apply gathers_field hs rfl rfl (readsPadded_line h)
      apply gathers_field hs rfl rfl (readsPadded_text message)
      exact .nil
  | invalidNumber key value line =>
      apply readsPadded_tagged hs rfl
      refine Record.readsPadded (d := ⟨some key, some value, some line⟩) hs ?_ rfl
      apply gathers_field hs rfl rfl (readsPadded_text key)
      apply gathers_field hs rfl rfl (readsPadded_text value)
      apply gathers_field hs rfl rfl (readsPadded_line h)
      exact .nil

theorem readsPadded_countJson (n : Option UInt32) :
    ReadsPadded style depth (readOption readCount) (countJson n) n := by
  refine readsPadded_ofOption ?_ (fun k _ => readsPadded_count k)
  intro k _
  obtain ⟨c, s, hwrite, hc⟩ := exists_write_ofNat_eq_cons style depth k.toNat
  exact ⟨c, s, hwrite, isSpace_of_isDigit hc, isDigit_ne hc (by decide)⟩

def listField {α : Type} (as : List α) : Option (List α) := if as.isEmpty then none else some as

theorem getD_listField {α : Type} (as : List α) : (listField as).getD [] = as := by
  cases as <;> rfl

theorem gathers_listMember {α β δ : Type} {f : Record δ α} (hs : style.Blank) {key : String}
    {get : δ → Option (List β)} {set : δ → List β → δ} {read : Reader β} {toJson : β → Json}
    {d x : δ} {bs : List β}
    (hfind : f.fields.find? (fun field => field.name == key) = some (.of key get set (readList read)))
    (hget : get d = none) (hx : x = if bs.isEmpty then d else set d bs)
    (hstart : ∀ b ∈ bs, StartsValue (write style (depth + 1) (toJson b)))
    (hread : ∀ b ∈ bs, ReadsPadded style (depth + 1) read (toJson b) b) :
    Gathers style depth f.readMember d (listMember key (bs.map toJson)) x := by
  subst hx
  cases bs with
  | nil => exact .nil
  | cons b bs =>
      exact gathers_field hs hfind hget (readsPadded_list hs hstart hread) .nil

namespace Command

def Payload (v : Json) : Prop := v ≠ .null ∧ Exact (maxDepth - 2) v

theorem readsPadded_payload (hs : style.Blank) {o : Option Json} (h : ∀ v, o = some v → Payload v) :
    ReadsPadded style depth readPayload (o.getD .null) o := by
  have hvalue : o.getD .null = ofOption id o := by cases o <;> rfl
  rw [hvalue]
  refine readsPadded_ofOption ?_ (fun v hv => (h v hv).2.readsPadded hs)
  intro v hv
  obtain ⟨hnull, hexact⟩ := h v hv
  obtain ⟨c, s, hwrite, hc, _, hn⟩ := hexact.exists_write_eq_cons style depth
  exact ⟨c, s, hwrite, hc, hn hnull⟩

structure Storable (c : Command) : Prop where
  body : ∀ v, c.body = some v → Payload v
  attributes : ∀ v, c.attributes = some v → Payload v
  range : c.range.Fits
  bodyRange : ∀ r, c.bodyRange = some r → r.Fits
  parameters : ∀ p ∈ c.parameters, p.line < lineLimit
  warnings : ∀ w ∈ c.warnings, w.line < lineLimit

def draft (c : Command) : Draft where
  kind := some c.kind
  target := some c.target
  profile := some c.profile
  region := some c.region
  body := some c.body
  attributes := some c.attributes
  maxMessages := some c.maxMessages
  visibilityTimeout := some c.visibilityTimeout
  waitTime := some c.waitTime
  range := some c.range
  bodyRange := some c.bodyRange
  parameters := listField c.parameters
  warnings := listField c.warnings

theorem build_draft (c : Command) : record.build c.draft = .ok c := by
  obtain ⟨⟩ := c
  simp only [record, draft, require, getD_listField]
  rfl

theorem gathers_draft (hs : style.Blank) {c : Command} (h : c.Storable) :
    ∃ ms, c.toJson = .object ms ∧ Gathers style (depth + 1) record.readMember {} ms c.draft := by
  have hkind : (Kind.all.map (fun k => (k.name, k))).lookup c.kind.name = some c.kind := by
    cases c.kind <;> rfl
  have hbodyRange : ReadsPadded style (depth + 1) (readOption LineRange.record.read)
      (.ofOption LineRange.toJson c.bodyRange) c.bodyRange := by
    refine readsPadded_ofOption ?_ (fun r hr => LineRange.readsPadded_toJson hs (h.bodyRange r hr))
    intro r _
    obtain ⟨s, hwrite⟩ := exists_write_object_eq_cons style (depth + 1) _
    exact ⟨'{', s, hwrite, by decide, by decide⟩
  -- the lists come last: what they leave unset when they are empty is unset before them
  have hparameters : Gathers style (depth + 1) record.readMember
      { c.draft with parameters := none, warnings := none }
      (listMember "parameters" (c.parameters.map Parameter.toJson)) { c.draft with warnings := none } := by
    refine gathers_listMember hs rfl rfl ?_ (fun _ _ => startsValue_object _ _ _)
      (fun p hp => p.readsPadded_toJson hs (h.parameters p hp))
    rw [draft, listField]
    split <;> rfl
  have hwarnings : Gathers style (depth + 1) record.readMember { c.draft with warnings := none }
      (listMember "warnings" (c.warnings.map Warning.toJson)) c.draft := by
    refine gathers_listMember hs rfl rfl ?_ ?_ (fun w hw => w.readsPadded_toJson hs (h.warnings w hw))
    · rw [draft, listField.eq_def c.warnings]
      split <;> rfl
    · intro w _
      cases w <;> exact startsValue_object _ _ _
  refine ⟨_, rfl, .append (.append ?_ hparameters) hwarnings⟩
  apply gathers_field hs rfl rfl (readsPadded_choice hkind)
  apply gathers_field hs rfl rfl (readsPadded_text c.target)
  apply gathers_field hs rfl rfl (readsPadded_text c.profile)
  apply gathers_field hs rfl rfl (readsPadded_text c.region)
  apply gathers_field hs rfl rfl (readsPadded_payload hs h.body)
  apply gathers_field hs rfl rfl (readsPadded_payload hs h.attributes)
  apply gathers_field hs rfl rfl (readsPadded_countJson c.maxMessages)
  apply gathers_field hs rfl rfl (readsPadded_countJson c.visibilityTimeout)
  apply gathers_field hs rfl rfl (readsPadded_countJson c.waitTime)
  apply gathers_field hs rfl rfl (LineRange.readsPadded_toJson hs h.range)
  apply gathers_field hs rfl rfl hbodyRange
  exact .nil

theorem readsPadded_toJson (hs : style.Blank) {c : Command} (h : c.Storable) :
    ReadsPadded style depth record.read c.toJson c := by
  obtain ⟨ms, hms, hgathers⟩ := gathers_draft hs h
  rw [hms]
  exact Record.readsPadded hs hgathers c.build_draft

theorem readAll_write (hs : style.Blank) {cs : List Command} (h : ∀ c ∈ cs, c.Storable)
    {w : List Char} (hw : Spaces w) :
    readAll (String.ofList (write style 0 (.array (cs.map toJson)) ++ w)) = .ok cs := by
  have hlist : ReadsPadded style 0 (readList record.read) (.array (cs.map toJson)) cs :=
    readsPadded_list hs (fun _ _ => startsValue_object _ _ _) (fun c hc => readsPadded_toJson hs (h c hc))
  have hread := hlist.reads w (by simpa using hw.endsNumber_append endsNumber_nil)
  simp only [readAll, readWhole, String.toList_ofList, hread, hw.skipSpace_eq]

end Command

end QueueScript
