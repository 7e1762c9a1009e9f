import QueueScript.Proofs.Json.Record
import QueueScript.Proofs.Text.Blank
import QueueScript.Settings

namespace QueueScript

open Json
open Json.Record (Gathered sets_field sets_value)

variable {style : Style} {depth : Nat} {kept : Selection} {v : Json}

namespace Lint

def BodyConfig.orDefault (kept : Selection) (c : BodyConfig) : BodyConfig :=
  let default : BodyConfig := {}
  { enabled := if kept ["enabled"] then c.enabled else default.enabled
    requireBody := if kept ["requireBody"] then c.requireBody else default.requireBody }

def BodyConfig.draft (c : BodyConfig) (names : List String) : BodyConfig.Draft where
  enabled := named names "enabled" c.enabled
  requireBody := named names "requireBody" c.requireBody

theorem BodyConfig.readsPadded_edited (hs : style.Blank) {c : BodyConfig} (h : Edited kept c.toJson v) :
    ReadsPadded style depth record.read v (c.orDefault kept) := by
  refine Record.readsPadded_edited c.draft hs h ?_ ?_
  · intro ns hvalues
    refine ⟨rfl, ?_, ?_⟩
    · simp only [record, List.forall_mem_cons]
      refine ⟨?_, ?_, List.forall_mem_nil _⟩
      · exact sets_value hvalues (.head _) (by simp) (readsPadded_bool _) (fun _ => rfl)
          (fun _ => by simp [draft, named])
      · exact sets_value hvalues (.tail _ (.head _)) (by simp) (readsPadded_bool _) (fun _ => rfl)
          (fun _ => by simp [draft, named])
    · intro name hname seen
      simp only [record, RecordField.of, List.map_cons, List.map_nil, List.mem_cons, not_or] at hname
      simp only [draft, named_cons_of_ne hname.1, named_cons_of_ne hname.2.1]
  · intro names hnames
    simp only [List.forall_mem_cons] at hnames
    obtain ⟨h₁, h₂, _⟩ := hnames
    simp only [record, draft, getD_named h₁, getD_named h₂]
    rfl

def ReceiveConfig.orDefault (kept : Selection) (c : ReceiveConfig) : ReceiveConfig :=
  let default : ReceiveConfig := {}
  { enabled := if kept ["enabled"] then c.enabled else default.enabled
    minMaxMessages := if kept ["minMaxMessages"] then c.minMaxMessages else default.minMaxMessages
    maxMaxMessages := if kept ["maxMaxMessages"] then c.maxMaxMessages else default.maxMaxMessages
    maxVisibilityTimeout :=
      if kept ["maxVisibilityTimeout"] then c.maxVisibilityTimeout else default.maxVisibilityTimeout
    maxWaitTime := if kept ["maxWaitTime"] then c.maxWaitTime else default.maxWaitTime }

def ReceiveConfig.draft (c : ReceiveConfig) (names : List String) : ReceiveConfig.Draft where
  enabled := named names "enabled" c.enabled
  minMaxMessages := named names "minMaxMessages" c.minMaxMessages
  maxMaxMessages := named names "maxMaxMessages" c.maxMaxMessages
  maxVisibilityTimeout := named names "maxVisibilityTimeout" c.maxVisibilityTimeout
  maxWaitTime := named names "maxWaitTime" c.maxWaitTime

theorem ReceiveConfig.readsPadded_edited (hs : style.Blank) {c : ReceiveConfig}
    (h : Edited kept c.toJson v) : ReadsPadded style depth record.read v (c.orDefault kept) := by
  refine Record.readsPadded_edited c.draft hs h ?_ ?_
  · intro ns hvalues
    refine ⟨rfl, ?_, ?_⟩
    · simp only [record, List.forall_mem_cons]
      refine ⟨?_, ?_, ?_, ?_, ?_, List.forall_mem_nil _⟩
      · exact sets_value hvalues (.head _) (by simp) (readsPadded_bool _) (fun _ => rfl)
          (fun _ => by simp [draft, named])
      · exact sets_value hvalues (.tail _ (.head _)) (by simp) (readsPadded_count _) (fun _ => rfl)
          (fun _ => by simp [draft, named])
      · exact sets_value hvalues (.tail _ (.tail _ (.head _))) (by simp) (readsPadded_count _)
          (fun _ => rfl) (fun _ => by simp [draft, named])
      · exact sets_value hvalues (.tail _ (.tail _ (.tail _ (.head _)))) (by simp) (readsPadded_count _)
          (fun _ => rfl) (fun _ => by simp [draft, named])
      · exact sets_value hvalues (.tail _ (.tail _ (.tail _ (.tail _ (.head _))))) (by simp)
          (readsPadded_count _) (fun _ => rfl) (fun _ => by simp [draft, named])
    · intro name hname seen
      simp only [record, RecordField.of, List.map_cons, List.map_nil, List.mem_cons, not_or] at hname
      obtain ⟨h₁, h₂, h₃, h₄, h₅, _⟩ := hname
      simp only [draft, named_cons_of_ne h₁, named_cons_of_ne h₂, named_cons_of_ne h₃,
        named_cons_of_ne h₄, named_cons_of_ne h₅]
  · intro names hnames
    simp only [List.forall_mem_cons] at hnames
    obtain ⟨h₁, h₂, h₃, h₄, h₅, _⟩ := hnames
    simp only [record, draft, getD_named h₁, getD_named h₂, getD_named h₃, getD_named h₄,
      getD_named h₅]
    rfl

def TargetConfig.orDefault (kept : Selection) (c : TargetConfig) : TargetConfig :=
  let default : TargetConfig := {}
  { enabled := if kept ["enabled"] then c.enabled else default.enabled
    schemes := if kept ["schemes"] then c.schemes else default.schemes }

def TargetConfig.draft (c : TargetConfig) (names : List String) : TargetConfig.Draft where
  enabled := named names "enabled" c.enabled
  schemes := named names "schemes" c.schemes

theorem TargetConfig.readsPadded_edited (hs : style.Blank) {c : TargetConfig}
    (h : Edited kept c.toJson v) : ReadsPadded style depth record.read v (c.orDefault kept) := by
  have hschemes : ReadsPadded style (depth + 1) (readList readText)
      (.array (c.schemes.map .string)) c.schemes := by
    refine readsPadded_list hs ?_ (fun s _ => readsPadded_text s)
    intro s _
    exact ⟨'"', _, by rw [write]; rfl, by decide, by decide⟩
  refine Record.readsPadded_edited c.draft hs h ?_ ?_
  · intro ns hvalues
    refine ⟨rfl, ?_, ?_⟩
    · simp only [record, List.forall_mem_cons]
      refine ⟨?_, ?_, List.forall_mem_nil _⟩
      · exact sets_value hvalues (.head _) (by simp) (readsPadded_bool _) (fun _ => rfl)
          (fun _ => by simp [draft, named])
      · exact sets_value hvalues (.tail _ (.head _)) (by simp) hschemes (fun _ => rfl)
          (fun _ => by simp [draft, named])
    · intro name hname seen
      simp only [record, RecordField.of, List.map_cons, List.map_nil, List.mem_cons, not_or] at hname
      simp only [draft, named_cons_of_ne hname.1, named_cons_of_ne hname.2.1]
  · intro names hnames
    simp only [List.forall_mem_cons] at hnames
    obtain ⟨h₁, h₂, _⟩ := hnames
    simp only [record, draft, getD_named h₁, getD_named h₂]
    rfl

def Config.orDefault (kept : Selection) (c : Config) : Config where
  body := if kept ["body"] then c.body.orDefault (kept.within "body") else {}
  receive := if kept ["receive"] then c.receive.orDefault (kept.within "receive") else {}
  target := if kept ["target"] then c.target.orDefault (kept.within "target") else {}

def Config.draft (kept : Selection) (c : Config) (names : List String) : Config.Draft where
  body := named names "body" (c.body.orDefault (kept.within "body"))
  receive := named names "receive" (c.receive.orDefault (kept.within "receive"))
  target := named names "target" (c.target.orDefault (kept.within "target"))

theorem Config.readsPadded_edited (hs : style.Blank) {c : Config} (h : Edited kept c.toJson v) :
    ReadsPadded style depth record.read v (c.orDefault kept) := by
  refine Record.readsPadded_edited (c.draft kept) hs h ?_ ?_
  · intro ns hvalues
    refine ⟨rfl, ?_, ?_⟩
    · simp only [record, List.forall_mem_cons]
      refine ⟨?_, ?_, ?_, List.forall_mem_nil _⟩
      · exact sets_field (fun v hv => BodyConfig.readsPadded_edited hs (hvalues _ hv _ (.head _)))
          (fun _ => rfl) (fun _ => by simp [draft, named])
      · exact sets_field
          (fun v hv => ReceiveConfig.readsPadded_edited hs (hvalues _ hv _ (.tail _ (.head _))))
          (fun _ => rfl) (fun _ => by simp [draft, named])
      · exact sets_field
          (fun v hv => TargetConfig.readsPadded_edited hs
            (hvalues _ hv _ (.tail _ (.tail _ (.head _)))))
          (fun _ => rfl) (fun _ => by simp [draft, named])
    · intro name hname seen
      simp only [record, RecordField.of, List.map_cons, List.map_nil, List.mem_cons, not_or] at hname
      obtain ⟨h₁, h₂, h₃, _⟩ := hname
      simp only [draft, named_cons_of_ne h₁, named_cons_of_ne h₂, named_cons_of_ne h₃]
  · intro names hnames
    simp only [List.forall_mem_cons] at hnames
    obtain ⟨h₁, h₂, h₃, _⟩ := hnames
    simp only [record, draft, getD_named h₁, getD_named h₂, getD_named h₃]
    rfl

end Lint

namespace Settings

open Text (Blank)

theorem isBlankText_iff {s : String} : isBlankText s = true ↔ Blank s := by
  rw [isBlankText, List.isEmpty_iff, Text.trim_eq_nil_iff, Blank]

theorem validate_eq_ok_iff {s : Settings} :
    s.validate = .ok () ↔ ¬Blank s.defaultProfile ∧ ¬Blank s.defaultRegion := by
  simp only [validate, ← isBlankText_iff]
  split
  · simp [*]
  · split
    · simp [*]
    · simp [*]

theorem ofText_eq_ok_iff {text : String} {s : Settings} :
    ofText text = .ok s ↔ Json.readWhole record.read text.toList = .ok s ∧
      ¬Blank s.defaultProfile ∧ ¬Blank s.defaultRegion := by
  rw [ofText, ← validate_eq_ok_iff]
  cases Json.readWhole record.read text.toList with
  | error e => simp
  | ok x =>
      change (x.validate >>= fun _ => pure x) = .ok s ↔ _
      rw [bind_eq_ok]
      constructor
      · rintro ⟨_, hvalid, hx⟩
        cases hx
        exact ⟨rfl, hvalid⟩
      · rintro ⟨hx, hvalid⟩
        cases hx
        exact ⟨(), hvalid, rfl⟩

def orDefault (kept : Selection) (s : Settings) : Settings :=
  let default : Settings := {}
  { defaultProfile := if kept ["defaultProfile"] then s.defaultProfile else default.defaultProfile
    defaultRegion := if kept ["defaultRegion"] then s.defaultRegion else default.defaultRegion
    lint := if kept ["lint"] then s.lint.orDefault (kept.within "lint") else default.lint }

def draft (kept : Selection) (s : Settings) (names : List String) : Draft where
  defaultProfile := named names "defaultProfile" s.defaultProfile
  defaultRegion := named names "defaultRegion" s.defaultRegion
  lint := named names "lint" (s.lint.orDefault (kept.within "lint"))

theorem readsPadded_edited (hs : style.Blank) {s : Settings} (h : Edited kept s.toJson v) :
    ReadsPadded style depth record.read v (s.orDefault kept) := by
  refine Record.readsPadded_edited (s.draft kept) hs h ?_ ?_
  · intro ns hvalues
    refine ⟨rfl, ?_, ?_⟩
    · simp only [record, List.forall_mem_cons]
      refine ⟨?_, ?_, ?_, List.forall_mem_nil _⟩
      · exact sets_value hvalues (.head _) (by simp) (readsPadded_text _) (fun _ => rfl)
          (fun _ => by simp [draft, named])
      · exact sets_value hvalues (.tail _ (.head _)) (by simp) (readsPadded_text _) (fun _ => rfl)
          (fun _ => by simp [draft, named])
      · exact sets_field
          (fun v hv => Lint.Config.readsPadded_edited hs
            (hvalues _ hv _ (.tail _ (.tail _ (.head _)))))
          (fun _ => rfl) (fun _ => by simp [draft, named])
    · intro name hname seen
      simp only [record, RecordField.of, List.map_cons, List.map_nil, List.mem_cons, not_or] at hname
      obtain ⟨h₁, h₂, h₃, _⟩ := hname
      simp only [draft, named_cons_of_ne h₁, named_cons_of_ne h₂, named_cons_of_ne h₃]
  · intro names hnames
    simp only [List.forall_mem_cons] at hnames
    obtain ⟨h₁, h₂, h₃, _⟩ := hnames
    simp only [record, draft, getD_named h₁, getD_named h₂, getD_named h₃]
    rfl

theorem not_blank_orDefault {s : Settings} (hprofile : ¬Blank s.defaultProfile)
    (hregion : ¬Blank s.defaultRegion) (kept : Selection) :
    ¬Blank (s.orDefault kept).defaultProfile ∧ ¬Blank (s.orDefault kept).defaultRegion := by
  have hdefault : ¬Blank ({} : Settings).defaultProfile ∧ ¬Blank ({} : Settings).defaultRegion := by
    decide
  simp only [orDefault]
  constructor
  · split
    · exact hprofile
    · exact hdefault.1
  · split
    · exact hregion
    · exact hdefault.2

theorem orDefault_all (s : Settings) : s.orDefault (fun _ => true) = s := rfl

theorem edited_self (s : Settings) : Edited (fun _ => true) s.toJson s.toJson := by
  have hflat {ms : List (String × Json)} (hnodup : (ms.map Prod.fst).Nodup)
      (hms : ∀ e ∈ ms, ∀ ns, e.2 ≠ .object ns) : Edited (fun _ => true) (.object ms) (.object ms) :=
    .object_self hnodup (fun e he => .value (hms e he))
  have hlint : Edited (fun _ => true) s.lint.toJson s.lint.toJson := by
    refine .object_self (by simp) ?_
    simp only [List.forall_mem_cons]
    exact ⟨hflat (by simp) (by simp), hflat (by simp) (by simp), hflat (by simp) (by simp),
      List.forall_mem_nil _⟩
  refine .object_self (by simp) ?_
  simp only [List.forall_mem_cons]
  exact ⟨.value (by simp), .value (by simp), hlint, List.forall_mem_nil _⟩

theorem ofText_partial {s : Settings} (hprofile : ¬Blank s.defaultProfile)
    (hregion : ¬Blank s.defaultRegion) :
    (∀ style : Style, style.Blank → ∀ kept v, Edited kept s.toJson v →
      ofText (String.ofList (v.write style 0)) = .ok (s.orDefault kept)) ∧
    ofText s.toJson.compact = .ok s := by
  have hpartial : ∀ style : Style, style.Blank → ∀ kept v, Edited kept s.toJson v →
      ofText (String.ofList (v.write style 0)) = .ok (s.orDefault kept) := by
    intro style hs kept v h
    have hread : record.read (v.write style 0 ++ []) = .ok (s.orDefault kept, []) :=
      (readsPadded_edited hs h).reads [] endsNumber_nil
    rw [List.append_nil] at hread
    rw [ofText_eq_ok_iff, String.toList_ofList, readWhole, hread]
    exact ⟨rfl, not_blank_orDefault hprofile hregion kept⟩
  have hwhole := hpartial .compact Style.blank_compact _ _ s.edited_self
  rw [orDefault_all] at hwhole
  exact ⟨hpartial, hwhole⟩

theorem ofText_partial_reordered :
    let s : Settings :=
      { defaultProfile := "ops"
        defaultRegion := "eu-west-1"
        lint :=
          { body := { enabled := false, requireBody := false }
            receive := { maxWaitTime := 5 }
            target := { enabled := false, schemes := ["sqs"] } } }
    let kept : Selection := fun path =>
      [["defaultRegion"], ["lint"], ["lint", "body"], ["lint", "body", "requireBody"],
        ["lint", "target"], ["lint", "target", "schemes"]].contains path
    let v : Json := .object
      [("lint", .object
          [("target", .object [("schemes", .array [.string "sqs"])]),
            ("weight", .object [("lint", .array [.number (.float 0.5), .null])]),
            ("body", .object [("name", .string "body"), ("requireBody", .bool false)])]),
        ("default_profile", .number (.whole 7)), ("defaultRegion", .string "eu-west-1")]
    ¬Blank s.defaultProfile ∧ ¬Blank s.defaultRegion ∧ Edited kept s.toJson v ∧
      ofText v.compact = .ok
        { defaultRegion := "eu-west-1"
          lint := { body := { requireBody := false }, target := { schemes := ["sqs"] } } } ∧
      ofText s.toJson.compact = .ok s := by
  intro s kept v
  have hprofile : ¬Blank s.defaultProfile := by decide
  have hregion : ¬Blank s.defaultRegion := by decide
  have hbody : Edited ((kept.within "lint").within "body") s.lint.body.toJson
      (.object [("name", .string "body"), ("requireBody", .bool false)]) := by
    have hrequire {k : Selection} : Edited k (.bool false) (.bool false) := .value (by simp)
    exact .object (by decide) (by decide) (by simpa using hrequire)
  have htarget : Edited ((kept.within "lint").within "target") s.lint.target.toJson
      (.object [("schemes", .array [.string "sqs"])]) := by
    have hschemes {k : Selection} : Edited k (.array (s.lint.target.schemes.map .string))
        (.array [.string "sqs"]) := .value (by simp)
    exact .object (by decide) (by decide) (by simpa using hschemes)
  have hlint : Edited (kept.within "lint") s.lint.toJson (.object
      [("target", .object [("schemes", .array [.string "sqs"])]),
        ("weight", .object [("lint", .array [.number (.float 0.5), .null])]),
        ("body", .object [("name", .string "body"), ("requireBody", .bool false)])]) :=
    .object (by decide) (by decide) (by simpa using ⟨htarget, hbody⟩)
  have hedited : Edited kept s.toJson v := by
    have hname {k : Selection} : Edited k (.string "eu-west-1") (.string "eu-west-1") := .value (by simp)
    exact .object (by decide) (by decide) (by simpa using ⟨hlint, hname⟩)
  obtain ⟨hpartial, hwhole⟩ := ofText_partial hprofile hregion
  exact ⟨hprofile, hregion, hedited, hpartial .compact Style.blank_compact kept v hedited, hwhole⟩

end Settings

end QueueScript
