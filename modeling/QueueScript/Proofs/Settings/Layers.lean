import QueueScript.CommandLine.Run
import QueueScript.Proofs.Script.WellFormed
import QueueScript.Proofs.Settings.File
/-!
Layers of settings: a file, the environment over it, explicit values over both. Each layer has its own
rule for blanks, and no blank profile or region comes through to a command.
-/

namespace QueueScript

open Text (Blank)

/-- The value that counts of three: the explicit one as it stands, else that of the variable without the
blanks around it, unless there is nothing else to it, else that of the file. -/
def prevailing (explicit ambient : Option String) (file : String) : String :=
  match explicit, ambient with
  | some value, _ => value
  | none, some value => if Blank value then file else String.ofList (Text.trim value.toList)
  | none, none => file

namespace Settings

variable {environment : String → Option String} {profile region : Option String} {s : Settings}

theorem override?_eq (environment : String → Option String) (name : String) :
    override? environment name = (environment name).bind
      (fun value => if Blank value then none else some (String.ofList (Text.trim value.toList))) := by
  rw [override?, Option.bind_eq_bind]
  refine congrArg (environment name).bind (funext fun value => ?_)
  refine if_congr ?_ rfl rfl
  rw [List.isEmpty_iff, Text.trim_eq_nil_iff, Blank]

theorem getD_override? (environment : String → Option String) (name : String)
    (explicit : Option String) (file : String) :
    explicit.getD ((override? environment name).getD file) =
      prevailing explicit (environment name) file := by
  cases explicit with
  | some value => rfl
  | none =>
      rw [Option.getD_none, override?_eq]
      cases environment name with
      | none => rfl
      | some value =>
          simp only [Option.bind_some, prevailing]
          split <;> rfl

theorem not_blank_prevailing {file : String} (h : ¬Blank file) (ambient : Option String) :
    ¬Blank (prevailing none ambient file) := by
  cases ambient with
  | none => exact h
  | some value =>
      rw [prevailing]
      split
      · exact h
      · rename_i hvalue
        exact Text.not_blank_trim (fun htrim => hvalue (Text.trim_eq_nil_iff.mp htrim))

def layered (f : Settings) (environment : String → Option String) (profile region : Option String) :
    Settings where
  defaultProfile := prevailing profile (environment "QUEUEPAD_PROFILE") f.defaultProfile
  defaultRegion := prevailing region (environment "QUEUEPAD_REGION") f.defaultRegion
  lint := f.lint

theorem withValues_withEnvironment (f : Settings) (environment : String → Option String)
    (profile region : Option String) :
    (f.withEnvironment environment).withValues profile region =
      f.layered environment profile region := by
  simp only [withValues, withEnvironment, getD_override?, layered, profileVariable, regionVariable]

theorem withEnvironment_idem (s : Settings) (environment : String → Option String) :
    (s.withEnvironment environment).withEnvironment environment = s.withEnvironment environment := by
  have hgetD (o : Option String) (x : String) : o.getD (o.getD x) = o.getD x := by
    cases o <;> rfl
  simp only [withEnvironment, hgetD]

theorem resolve_eq_ok_iff {file : Except Error Settings} :
    resolve file environment profile region = .ok s ↔
      ∃ f, file = .ok f ∧ s = f.layered environment profile region ∧
        ¬Blank s.defaultProfile ∧ ¬Blank s.defaultRegion := by
  simp only [resolve, Json.bind_eq_ok, ← validate_eq_ok_iff, withValues_withEnvironment]
  constructor
  · rintro ⟨f, hf, _, hvalid, hs⟩
    cases hs
    exact ⟨f, hf, rfl, hvalid⟩
  · rintro ⟨f, hf, rfl, hvalid⟩
    exact ⟨f, hf, (), hvalid, rfl⟩

end Settings

namespace CommandLine.Job

open Settings (ofText not_blank_prevailing)

variable {job : Job} {read : String → Except ReadFailure String}
  {environment : String → Option String} {f s : Settings}

/-- The settings before the environment and the options: those of the file, which must be readable and
accepted as it is, or the default ones. -/
def Starts (job : Job) (read : String → Except ReadFailure String) (f : Settings) : Prop :=
  match job.options.config with
  | none => f = { defaultProfile := "default", defaultRegion := "us-east-1", lint := {} }
  | some path => ∃ text, read path = .ok text ∧ ofText text = .ok f

theorem Starts.not_blank (h : job.Starts read f) :
    ¬Blank f.defaultProfile ∧ ¬Blank f.defaultRegion := by
  rw [Starts] at h
  split at h
  · rw [h]
    decide
  · obtain ⟨text, _, htext⟩ := h
    exact (Settings.ofText_eq_ok_iff.mp htext).2

theorem settings_eq_ok_iff :
    job.settings read environment = .ok s ↔ ∃ f, job.Starts read f ∧
      s = f.layered environment job.options.profile job.options.region ∧
      ¬Blank s.defaultProfile ∧ ¬Blank s.defaultRegion := by
  rw [settings, Settings.resolve_eq_ok_iff]
  refine exists_congr fun f => and_congr_left' ?_
  rw [Starts]
  cases job.options.config with
  | none => exact ⟨fun h => (Except.ok.inj h).symm, fun h => congrArg Except.ok h.symm⟩
  | some path =>
      simp only [Settings.load]
      cases read path with
      | error failure => simp
      | ok text => simp

theorem settings_of_no_values (hprofile : job.options.profile = none)
    (hregion : job.options.region = none) (h : job.Starts read f) :
    job.settings read environment = .ok (f.withEnvironment environment) := by
  have hlayered : f.layered environment job.options.profile job.options.region =
      f.withEnvironment environment := by
    rw [hprofile, hregion, ← Settings.withValues_withEnvironment]
    rfl
  obtain ⟨hfile₁, hfile₂⟩ := h.not_blank
  refine settings_eq_ok_iff.mpr ⟨f, h, hlayered.symm, ?_⟩
  rw [← hlayered, hprofile, hregion]
  exact ⟨not_blank_prevailing hfile₁ _, not_blank_prevailing hfile₂ _⟩

theorem not_blank_of_mem_parse (h : job.settings read environment = .ok s) {text : String}
    {c : Command} (hc : c ∈ Script.parse s.defaults text) : ¬Blank c.profile ∧ ¬Blank c.region := by
  obtain ⟨_, _, _, hprofile, hregion⟩ := settings_eq_ok_iff.mp h
  exact Script.forall_names_of_mem_parse (P := fun name => ¬Blank name) (fun _ => id) hc hprofile
    hregion

theorem settings_layered (job : Job) (read : String → Except ReadFailure String)
    (environment : String → Option String) :
    (∀ s, job.settings read environment = .ok s ↔ ∃ f, job.Starts read f ∧
      s = f.layered environment job.options.profile job.options.region ∧
      ¬Blank s.defaultProfile ∧ ¬Blank s.defaultRegion) ∧
    (∀ text f, ofText text = .ok f ↔ Json.readWhole Settings.record.read text.toList = .ok f ∧
      ¬Blank f.defaultProfile ∧ ¬Blank f.defaultRegion) ∧
    (∀ s, job.settings read environment = .ok s → ∀ text, ∀ c ∈ Script.parse s.defaults text,
      ¬Blank c.profile ∧ ¬Blank c.region) ∧
    (job.options.profile = none → job.options.region = none → ∀ f, job.Starts read f →
      (f.withEnvironment environment).validate = .ok () ∧
        job.settings read environment = .ok (f.withEnvironment environment)) ∧
    ∀ s : Settings, (s.withEnvironment environment).withEnvironment environment =
      s.withEnvironment environment := by
  refine ⟨fun _ => settings_eq_ok_iff, fun _ _ => Settings.ofText_eq_ok_iff,
    fun _ h _ _ hc => not_blank_of_mem_parse h hc, ?_, fun s => s.withEnvironment_idem environment⟩
  intro hprofile hregion f hf
  have hok : job.settings read environment = .ok (f.withEnvironment environment) :=
    settings_of_no_values hprofile hregion hf
  obtain ⟨_, _, _, hvalid⟩ := settings_eq_ok_iff.mp hok
  exact ⟨Settings.validate_eq_ok_iff.mpr hvalid, hok⟩

theorem settings_layered_blanks :
    let text := "\x7b\"lint\":\x7b\"body\":\x7b\"enabled\":false\x7d\x7d,\"defaultProfile\":\"f\"\x7d"
    let blank := "\x7b\"defaultProfile\":\" \"\x7d"
    let f : Settings := { defaultProfile := "f", lint := { body := { enabled := false } } }
    let read (path : String) : Except ReadFailure String :=
      if path = "pad.json" then .ok text else if path = "blank.json" then .ok blank
      else .error .notFound
    let environment (name : String) : Option String :=
      if name = "QUEUEPAD_PROFILE" then some "  ops\t" else some " "
    let job (options : Options) : Job := ⟨.plan, "q.txt", options⟩
    let s := { f with defaultProfile := "ops", defaultRegion := " eu " }
    (job { config := some "pad.json", region := some " eu " }).settings read environment = .ok s ∧
      (∀ c ∈ Script.parse s.defaults "SEND q\nprofile: \nregion: \tus",
        ¬Blank c.profile ∧ ¬Blank c.region) ∧
      (job { config := some "pad.json" }).settings read environment =
        .ok { f with defaultProfile := "ops" } ∧
      (∀ s, (job { profile := some "\t" }).settings read environment ≠ .ok s) ∧
      ∀ s, (job { config := some "blank.json" }).settings read environment ≠ .ok s := by
  intro text blank f read environment job s
  obtain ⟨hiff, _, hparsed, _⟩ :=
    settings_layered (job { config := some "pad.json", region := some " eu " }) read environment
  have hread : read "pad.json" = .ok text := rfl
  have hfile : ofText text = .ok f := by
    simp only [text, f]
    rfl
  have hok := (hiff s).mpr ⟨f, ⟨text, hread, hfile⟩, by decide, by decide⟩
  refine ⟨hok, hparsed s hok _, ?_, ?_, ?_⟩
  · obtain ⟨_, _, _, hplain, _⟩ :=
      settings_layered (job { config := some "pad.json" }) read environment
    exact (hplain rfl rfl f ⟨text, hread, hfile⟩).2
  · intro s hs
    obtain ⟨hiff, _⟩ := settings_layered (job { profile := some "\t" }) read environment
    obtain ⟨_, _, rfl, hprofile, _⟩ := (hiff s).mp hs
    have hblank : Blank "\t" := by decide
    exact hprofile hblank
  · intro s hs
    obtain ⟨hiff, _⟩ := settings_layered (job { config := some "blank.json" }) read environment
    obtain ⟨f, ⟨t, ht, hf⟩, _⟩ := (hiff s).mp hs
    obtain rfl : blank = t := Except.ok.inj ht
    have hblank : ofText blank = .error (.emptyDefault "defaultProfile") := by
      simp only [blank]
      rfl
    rw [hblank] at hf
    cases hf

end CommandLine.Job

end QueueScript
