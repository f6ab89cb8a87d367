import Kaskade.DecimalFloats
import Kaskade.SettingsEntries

/-!
# Settings

`load_settings`: the settings file is read, its sections are parsed independently of each other, and
what cannot be used is ignored with a warning.
-/

namespace Kaskade

open Python

variable {F O : Type}

abbrev YamlEntries (F O : Type) := List (YamlKey O × YamlValue F O)

def DistinctKeys : ℕ → YamlEntries F O → Prop
  | 0, _ => True
  | depth + 1, data => (data.map Prod.fst).Nodup ∧
      ∀ entry ∈ data, ∀ entries, entry.2 = .dict entries → DistinctKeys depth entries

structure SettingsFile (F O : Type) where
  /-- `str(settings_path)`. -/
  path : Text
  /-- `settings_path.exists()`, which no handler stands around. -/
  present : Outcome Bool
  /-- What reading and then loading it returns or raises. -/
  content : Outcome (YamlValue F O)
  /-- A mapping has one value for each key. The settings are read down to this depth. -/
  distinct : ∀ data, content = .ok (.dict data) → DistinctKeys 3 data

structure AppSettings (F O : Type) where
  path : Text
  keymap : List (Text × Text)
  adminRefreshIntervalSeconds : ℤ
  adminReadOnly : Bool
  theme : Option Text
  customThemes : YamlEntries F O
  timeouts : TimeoutConfig F
  warnings : List Text

def readSettings (file : SettingsFile F O) : Outcome (YamlEntries F O × List Text) :=
  match file.present with
  | .error e => .error e
  | .ok false => .ok ([], [])
  | .ok true =>
    match file.content with
    | .error e =>
      if e.isInstance [.osError, .yamlError] then
        .ok ([], [text "Could not read " ++ file.path ++ text ": " ++ e.message])
      else .error e
    | .ok .null => .ok ([], [])
    | .ok (.dict entries) => .ok (entries, [])
    | .ok _ => .ok ([], [text "Ignoring " ++ file.path ++ text ": the document must be a mapping"])

/-- `entries.get(name)`. -/
def getSetting [DecidableEq O] (entries : YamlEntries F O) (name : Text) : Option (YamlValue F O) :=
  entries.lookup (.str name)

def unknownSettingReason : YamlKey O → Text
  | .str name =>
    if name.contains (chr '_') then text "setting names must use hyphens, not underscores"
    else text "unknown setting"
  | _ => text "unknown setting"

def adminRefreshIntervalSetting : Text := text "refresh-interval"

def adminReadOnlySetting : Text := text "read-only"

def timeoutsSetting : Text := text "timeouts"

def adminSettings : List Text := [adminRefreshIntervalSetting, adminReadOnlySetting, timeoutsSetting]

def consumerSettings : List Text := [timeoutsSetting]

def producerSettings : List Text := [timeoutsSetting]

def defaultAdminRefreshIntervalSeconds : ℤ := 30

def isValidAdminRefreshInterval (value : ℤ) : Bool := value = 0 ∨ 5 ≤ value

section Parsing

variable [DecidableEq O] [PyFloat F] (python : SettingsPython F O)

/-- Whether `setting_name in known_settings`. -/
def isKnownSetting (known : List Text) : YamlKey O → Bool
  | .str name => known.contains name
  | _ => false

/-- The warning of `_parse_section` about an unknown setting. -/
def unknownSettingWarning (sectionName : Text) (key : YamlKey O) : Outcome Text := do
  let shown ← python.strKey key
  return text "Ignoring '" ++ sectionName ++ text "." ++ shown ++ text "': " ++ unknownSettingReason key

/-- `_parse_section`, on the value of the section. -/
def parseSection (sectionName : Text) (known : List Text) (configured : Option (YamlValue F O)) :
    Outcome (YamlEntries F O × List Text) :=
  match configured with
  | none => .ok ([], [])
  | some (.dict entries) => do
    let warnings ← ((entries.map Prod.fst).filter (!isKnownSetting known ·)).mapM
      (unknownSettingWarning python sectionName)
    return (entries, warnings)
  | some _ => .ok ([], [text "Ignoring '" ++ sectionName ++ text "': it must be a mapping"])

def parseAdminRefreshInterval (admin : YamlEntries F O) : ℤ × List Text :=
  match getSetting admin adminRefreshIntervalSetting with
  | none => (defaultAdminRefreshIntervalSeconds, [])
  | some (.int interval) =>
    if isValidAdminRefreshInterval interval then (interval, [])
    else (defaultAdminRefreshIntervalSeconds,
      [text "Ignoring 'admin.refresh-interval': it must be 0 or at least 5"])
  | some _ => (defaultAdminRefreshIntervalSeconds,
      [text "Ignoring 'admin.refresh-interval': it must be an integer"])

def parseAdminReadOnly (admin : YamlEntries F O) : Bool × List Text :=
  match getSetting admin adminReadOnlySetting with
  | none => (false, [])
  | some (.bool readOnly) => (readOnly, [])
  | some _ => (false, [text "Ignoring 'admin.read-only': it must be true or false"])

def parseTimeouts (sectionName : Text) (entries : YamlEntries F O)
    (properties : List TimeoutProperty) : Outcome (Collected TimeoutProperty F) :=
  let path := sectionName ++ text "." ++ timeoutsSetting
  match getSetting entries timeoutsSetting with
  | none => .ok {}
  | some (.dict configured) => collectEntries (timeoutResult python path properties) configured
  | some _ => .ok { warnings := [text "Ignoring '" ++ path ++ text "': it must be a mapping"] }

def parseTheme (configured : Option (YamlValue F O)) : Option Text × List Text :=
  match configured with
  | none => (none, [])
  | some .null => (none, [])
  | some (.str theme) =>
    if strip theme = [] then (none, [text "Ignoring 'theme': it must be a non-empty string"])
    else (some theme, [])
  | some _ => (none, [text "Ignoring 'theme': it must be a non-empty string"])

def parseCustomThemes (configured : Option (YamlValue F O)) : YamlEntries F O × List Text :=
  match configured with
  | none => ([], [])
  | some .null => ([], [])
  | some (.dict themes) => (themes, [])
  | some _ => ([], [text "Ignoring 'themes': it must be a mapping"])

/-- `TimeoutConfig.from_dict`; all keys are timeout properties. -/
def timeoutsFromDict (config : List (TimeoutProperty × F)) : Outcome (TimeoutConfig F) := do
  let parsed ← config.mapM fun (property, seconds) => do
    let value ← parseTimeoutSeconds python property (.inr seconds)
    return (property, value)
  return fun property =>
    (parsed.lookup property).getD (PyFloat.ofRepr (.literal property.default))

/-- What the sections `consumer` and `producer` hold, with the warnings about them. -/
def parseTimeoutSection (sectionName : Text) (known : List Text) (properties : List TimeoutProperty)
    (configured : Option (YamlValue F O)) : Outcome (Collected TimeoutProperty F) := do
  let (entries, warnings) ← parseSection python sectionName known configured
  let timeouts ← parseTimeouts python sectionName entries properties
  return { timeouts with warnings := warnings ++ timeouts.warnings }

/-- What the section `admin` holds. -/
structure AdminSection (F : Type) where
  refreshInterval : ℤ
  readOnly : Bool
  timeouts : List (TimeoutProperty × F)
  warnings : List Text

/-- The section `admin`, with the warnings about it. -/
def parseAdmin (configured : Option (YamlValue F O)) : Outcome (AdminSection F) := do
  let (admin, warnings) ← parseSection python (text "admin") adminSettings configured
  let (refreshInterval, refreshIntervalWarnings) := parseAdminRefreshInterval admin
  let (readOnly, readOnlyWarnings) := parseAdminReadOnly admin
  let timeouts ← parseTimeouts python (text "admin") admin adminTimeoutProperties
  return { refreshInterval := refreshInterval, readOnly := readOnly, timeouts := timeouts.values
           warnings := warnings ++ refreshIntervalWarnings ++ readOnlyWarnings ++ timeouts.warnings }

/-- `load_settings`, given what `_read_settings` returned. -/
def settingsOf (path : Text) (data : YamlEntries F O) (readWarnings : List Text) :
    Outcome (AppSettings F O) := do
  let keymap ← parseKeymap python path ((getSetting data (text "keymap")).getD (.dict []))
  let admin ← parseAdmin python (getSetting data (text "admin"))
  let consumer ← parseTimeoutSection python (text "consumer") consumerSettings
    consumerTimeoutProperties (getSetting data (text "consumer"))
  let producer ← parseTimeoutSection python (text "producer") producerSettings
    producerTimeoutProperties (getSetting data (text "producer"))
  let (theme, themeWarnings) := parseTheme (getSetting data (text "theme"))
  let (customThemes, customThemeWarnings) := parseCustomThemes (getSetting data (text "themes"))
  let timeouts ← timeoutsFromDict python (admin.timeouts ++ consumer.values ++ producer.values)
  return { path := path, keymap := keymap.values
           adminRefreshIntervalSeconds := admin.refreshInterval, adminReadOnly := admin.readOnly
           theme := theme, customThemes := customThemes, timeouts := timeouts
           warnings := readWarnings ++ keymap.warnings ++ admin.warnings ++ consumer.warnings ++
             producer.warnings ++ themeWarnings ++ customThemeWarnings }

def loadSettings (file : SettingsFile F O) : Outcome (AppSettings F O) := do
  let (data, readWarnings) ← readSettings file
  settingsOf python file.path data readWarnings

end Parsing

/-- The names of the sections with their settings and timeouts. -/
inductive SettingsSection where
  | admin
  | consumer
  | producer
  deriving DecidableEq

namespace SettingsSection

def name : SettingsSection → Text
  | admin => text "admin"
  | consumer => text "consumer"
  | producer => text "producer"

def known : SettingsSection → List Text
  | admin => adminSettings
  | consumer => consumerSettings
  | producer => producerSettings

def properties : SettingsSection → List TimeoutProperty
  | admin => adminTimeoutProperties
  | consumer => consumerTimeoutProperties
  | producer => producerTimeoutProperties

end SettingsSection

def YamlValue.IsDict (value : YamlValue F O) : Prop := ∃ entries, value = .dict entries

section Invalid

variable [DecidableEq O] [PyFloat F]

/-- The entry at a path of the data cannot be used. A name of the document that is none of those the
settings know is not read at all. -/
inductive InvalidEntry (python : SettingsPython F O) (data : YamlEntries F O) : List (YamlKey O) → Prop
  | keymap {value} (hget : getSetting data (text "keymap") = some value) (hdict : ¬ value.IsDict) :
      InvalidEntry python data [.str (text "keymap")]
  | binding {entries entry} (hget : getSetting data (text "keymap") = some (.dict entries))
      (hentry : entry ∈ entries)
      (hinvalid : ∀ bindingId keys, entry = (.str bindingId, .str keys) →
        ¬ ValidBinding python bindingId keys) :
      InvalidEntry python data [.str (text "keymap"), entry.1]
  | sectionValue {part : SettingsSection} {value} (hget : getSetting data part.name = some value)
      (hdict : ¬ value.IsDict) : InvalidEntry python data [.str part.name]
  | unknownSetting {part : SettingsSection} {entries entry}
      (hget : getSetting data part.name = some (.dict entries)) (hentry : entry ∈ entries)
      (hunknown : isKnownSetting part.known entry.1 = false) :
      InvalidEntry python data [.str part.name, entry.1]
  | refreshInterval {entries value} (hget : getSetting data (text "admin") = some (.dict entries))
      (hvalue : getSetting entries adminRefreshIntervalSetting = some value)
      (hinvalid : ∀ interval, value = .int interval → ¬ (interval = 0 ∨ 5 ≤ interval)) :
      InvalidEntry python data [.str (text "admin"), .str adminRefreshIntervalSetting]
  | readOnly {entries value} (hget : getSetting data (text "admin") = some (.dict entries))
      (hvalue : getSetting entries adminReadOnlySetting = some value)
      (hinvalid : ∀ readOnly, value ≠ .bool readOnly) :
      InvalidEntry python data [.str (text "admin"), .str adminReadOnlySetting]
  | timeouts {part : SettingsSection} {entries value}
      (hget : getSetting data part.name = some (.dict entries))
      (hvalue : getSetting entries timeoutsSetting = some value) (hdict : ¬ value.IsDict) :
      InvalidEntry python data [.str part.name, .str timeoutsSetting]
  | timeout {part : SettingsSection} {entries configured entry}
      (hget : getSetting data part.name = some (.dict entries))
      (hconfigured : getSetting entries timeoutsSetting = some (.dict configured))
      (hentry : entry ∈ configured) (hinvalid : ¬ ValidTimeout python part.properties entry) :
      InvalidEntry python data [.str part.name, .str timeoutsSetting, entry.1]
  | theme {value} (hget : getSetting data (text "theme") = some value) (hnull : value ≠ .null)
      (hinvalid : ∀ theme, value = .str theme → strip theme = []) :
      InvalidEntry python data [.str (text "theme")]
  | themes {value} (hget : getSetting data (text "themes") = some value) (hnull : value ≠ .null)
      (hdict : ¬ value.IsDict) : InvalidEntry python data [.str (text "themes")]

def eraseAt : List (YamlKey O) → YamlEntries F O → YamlEntries F O
  | [], data => data
  | [key], data => data.filter (·.1 ≠ key)
  | key :: rest, data => data.map fun entry =>
      if entry.1 = key then
        (entry.1, match entry.2 with | .dict entries => .dict (eraseAt rest entries) | value => value)
      else entry

omit [PyFloat F] in
theorem DistinctKeys.eraseAt {depth : ℕ} {data : YamlEntries F O} (h : DistinctKeys depth data)
    (path : List (YamlKey O)) : DistinctKeys depth (eraseAt path data) := by
  induction path generalizing depth data with
  | nil => exact h
  | cons key rest ih =>
    cases depth with
    | zero => trivial
    | succ depth =>
      cases rest with
      | nil =>
        refine ⟨h.1.sublist (List.filter_sublist.map Prod.fst), fun entry hentry => ?_⟩
        exact h.2 entry (List.mem_filter.mp hentry).1
      | cons next rest =>
        constructor
        · rw [Kaskade.eraseAt, List.map_map]
          · refine (congrArg List.Nodup (List.map_congr_left fun entry _ => ?_)).mpr h.1
            dsimp only [Function.comp_apply]
            split_ifs <;> rfl
          · exact List.cons_ne_nil next rest
        · intro entry hentry entries hentries
          obtain ⟨old, hold, rfl⟩ := List.mem_map.mp hentry
          split_ifs at hentries with hkey
          · split at hentries
            · rename_i oldEntries holdEntries
              cases hentries
              exact ih (h.2 old hold oldEntries holdEntries)
            · exact h.2 old hold entries hentries
          · exact h.2 old hold entries hentries

def SettingsFile.without (file : SettingsFile F O) (path : List (YamlKey O)) : SettingsFile F O where
  path := file.path
  present := file.present
  content := file.content.map fun
    | .dict data => .dict (eraseAt path data)
    | value => value
  distinct := by
    intro data hdata
    cases hcontent : file.content with
    | error e =>
      rw [hcontent] at hdata
      cases hdata
    | ok value =>
      rw [hcontent] at hdata
      cases value with
      | dict entries =>
        cases hdata
        exact (file.distinct entries hcontent).eraseAt path
      | _ => cases hdata

/-- The second list is the first without one of its items. -/
def LosesOne (warnings warnings' : List Text) : Prop :=
  ∃ earlier warning later, warnings = earlier ++ warning :: later ∧ warnings' = earlier ++ later

def KeymapReads (python : SettingsPython F O) (data : YamlEntries F O) : Prop :=
  ∀ entries, getSetting data (text "keymap") = some (.dict entries) →
    ∀ entry ∈ entries, BindingReads python entry

/-- What a section asks can be answered: its unknown settings can be shown, and its timeouts read. -/
def SectionReads (python : SettingsPython F O) (part : SettingsSection)
    (configured : Option (YamlValue F O)) : Prop :=
  ∀ entries, configured = some (.dict entries) →
    (∀ key ∈ entries.map Prod.fst, isKnownSetting part.known key = false → KeyPrints python key) ∧
      ∀ timeouts, getSetting entries timeoutsSetting = some (.dict timeouts) →
        ∀ entry ∈ timeouts, TimeoutReads python part.properties entry

/-- Looking for the file does not raise, reading it raises nothing but what is caught, and what the
data asks can be answered. -/
def SettingsFile.Loads (python : SettingsPython F O) (file : SettingsFile F O) : Prop :=
  (∃ found, file.present = .ok found) ∧ (file.present = .ok true →
    (∀ e, file.content = .error e → e.isInstance [.osError, .yamlError]) ∧
      ∀ data, file.content = .ok (.dict data) →
        KeymapReads python data ∧ ∀ part : SettingsSection,
          SectionReads python part (getSetting data part.name))

/-- The refresh interval, the timeouts and the bindings are valid. -/
structure AppSettings.Valid (python : SettingsPython F O) (settings : AppSettings F O) : Prop where
  refreshInterval : settings.adminRefreshIntervalSeconds = 0 ∨ 5 ≤ settings.adminRefreshIntervalSeconds
  timeouts : ∀ property, isTimeout (settings.timeouts property)
  keymap : ∀ binding ∈ settings.keymap, ValidBinding python binding.1 binding.2

/-- Valid settings are returned; each invalid entry leaves one warning and changes nothing else, and
so does a file that cannot be used as a whole. -/
def SettingsFile.Meets (python : SettingsPython F O) (file : SettingsFile F O) : Prop :=
  ∃ settings, loadSettings python file = .ok settings ∧ settings.Valid python ∧
    (file.present = .ok true → ∀ data, file.content = .ok (.dict data) → ∀ path, InvalidEntry python data path →
      ∃ settings', loadSettings python (file.without path) = .ok settings' ∧
        settings' = { settings with warnings := settings'.warnings } ∧
        LosesOne settings.warnings settings'.warnings) ∧
    (file.present = .ok true → (∀ value, file.content = .ok value → ¬ value.IsDict ∧ value ≠ .null) →
      ∃ warning settings', loadSettings python { file with present := .ok false } = .ok settings' ∧
        settings'.warnings = [] ∧ settings = { settings' with warnings := [warning] })

end Invalid

section Returns

variable [DecidableEq O] [PyFloat F] {python : SettingsPython F O}

omit [PyFloat F] in
theorem parseKeymap_returns_iff (path : Text) {data : YamlEntries F O} :
    (∃ keymap, parseKeymap python path ((getSetting data (text "keymap")).getD (.dict [])) = .ok keymap) ↔
      KeymapReads python data := by
  rw [KeymapReads]
  cases getSetting data (text "keymap") with
  | none => exact ⟨fun _ => nofun, fun _ => ⟨_, rfl⟩⟩
  | some value =>
    cases value with
    | dict entries =>
      refine collectEntries_returns_iff.trans ?_
      simp only [bindingResult_returns_iff]
      exact ⟨fun h _ hentries => by cases hentries; exact h, fun h => h entries rfl⟩
    | _ => exact ⟨fun _ => nofun, fun _ => ⟨_, rfl⟩⟩

theorem parseTimeouts_returns_iff {name : Text} {entries : YamlEntries F O}
    {properties : List TimeoutProperty} :
    (∃ timeouts, parseTimeouts python name entries properties = .ok timeouts) ↔
      ∀ configured, getSetting entries timeoutsSetting = some (.dict configured) →
        ∀ entry ∈ configured, TimeoutReads python properties entry := by
  rw [parseTimeouts]
  cases getSetting entries timeoutsSetting with
  | none => exact ⟨fun _ => nofun, fun _ => ⟨_, rfl⟩⟩
  | some value =>
    cases value with
    | dict configured =>
      refine collectEntries_returns_iff.trans ?_
      simp only [timeoutResult_returns_iff]
      exact ⟨fun h _ hentries => by cases hentries; exact h, fun h => h configured rfl⟩
    | _ => exact ⟨fun _ => nofun, fun _ => ⟨_, rfl⟩⟩

def sectionEntries : Option (YamlValue F O) → YamlEntries F O
  | some (.dict entries) => entries
  | _ => []

def sectionWarnings (python : SettingsPython F O) (part : SettingsSection) :
    Option (YamlValue F O) → Outcome (List Text)
  | none => .ok []
  | some (.dict entries) => ((entries.map Prod.fst).filter (!isKnownSetting part.known ·)).mapM
      (unknownSettingWarning python part.name)
  | some _ => .ok [text "Ignoring '" ++ part.name ++ text "': it must be a mapping"]

omit [DecidableEq O] [PyFloat F] in
theorem parseSection_eq (python : SettingsPython F O) (part : SettingsSection) (configured : Option (YamlValue F O)) :
    parseSection python part.name part.known configured =
      (sectionWarnings python part configured >>= fun warnings =>
        pure (sectionEntries configured, warnings)) := by
  cases configured with
  | none => rfl
  | some value => cases value <;> rfl

omit [DecidableEq O] [PyFloat F] in
theorem sectionWarnings_returns_iff {part : SettingsSection} {configured : Option (YamlValue F O)} :
    (∃ warnings, sectionWarnings python part configured = .ok warnings) ↔
      ∀ key ∈ (sectionEntries configured).map Prod.fst, isKnownSetting part.known key = false →
        KeyPrints python key := by
  cases configured with
  | none => exact ⟨fun _ => nofun, fun _ => ⟨_, rfl⟩⟩
  | some value =>
    cases value with
    | dict entries =>
      refine Outcome.mapM_returns_iff.trans ?_
      simp only [List.mem_filter, Bool.not_eq_true', and_imp]
      refine forall₃_congr fun key _ _ => ?_
      exact bind_returns_iff.trans strKey_returns_iff
    | _ => exact ⟨fun _ => nofun, fun _ => ⟨_, rfl⟩⟩

theorem sectionReads_iff {part : SettingsSection} {configured : Option (YamlValue F O)} :
    SectionReads python part configured ↔
      (∃ warnings, sectionWarnings python part configured = .ok warnings) ∧
        ∃ timeouts, parseTimeouts python part.name (sectionEntries configured) part.properties =
          .ok timeouts := by
  rw [sectionWarnings_returns_iff, parseTimeouts_returns_iff, SectionReads]
  cases configured with
  | none => simp [sectionEntries, getSetting]
  | some value =>
    cases value with
    | dict entries => exact ⟨fun h => h entries rfl, fun h _ hentries => by cases hentries; exact h⟩
    | _ => simp [sectionEntries, getSetting]

theorem parseTimeoutSection_ok_iff (part : SettingsSection) {configured : Option (YamlValue F O)}
    {result : Collected TimeoutProperty F} :
    parseTimeoutSection python part.name part.known part.properties configured = .ok result ↔
      ∃ warnings timeouts, sectionWarnings python part configured = .ok warnings ∧
        parseTimeouts python part.name (sectionEntries configured) part.properties = .ok timeouts ∧
        result = { timeouts with warnings := warnings ++ timeouts.warnings } := by
  rw [parseTimeoutSection, parseSection_eq]
  cases sectionWarnings python part configured with
  | error e => simp [bind, Except.bind]
  | ok warnings =>
    simp only [bind, Except.bind, pure, Except.pure]
    cases parseTimeouts python part.name (sectionEntries configured) part.properties with
    | error e => simp
    | ok timeouts => simp [eq_comm]

theorem parseAdmin_ok_iff {configured : Option (YamlValue F O)} {result : AdminSection F} :
    parseAdmin python configured = .ok result ↔
      ∃ warnings timeouts, sectionWarnings python .admin configured = .ok warnings ∧
        parseTimeouts python (text "admin") (sectionEntries configured) adminTimeoutProperties =
          .ok timeouts ∧
        result =
          { refreshInterval := (parseAdminRefreshInterval (sectionEntries configured)).1
            readOnly := (parseAdminReadOnly (sectionEntries configured)).1
            timeouts := timeouts.values
            warnings := warnings ++ (parseAdminRefreshInterval (sectionEntries configured)).2 ++
              (parseAdminReadOnly (sectionEntries configured)).2 ++ timeouts.warnings } := by
  have hsection := parseSection_eq python .admin configured
  rw [parseAdmin]
  change (parseSection python SettingsSection.admin.name SettingsSection.admin.known configured >>= _) = _ ↔ _
  rw [hsection]
  cases sectionWarnings python .admin configured with
  | error e => simp [bind, Except.bind]
  | ok warnings =>
    simp only [bind, Except.bind, pure, Except.pure]
    cases parseTimeouts python (text "admin") (sectionEntries configured) adminTimeoutProperties with
    | error e => simp
    | ok timeouts => simp [eq_comm]

theorem parseTimeouts_valid {name : Text} {entries : YamlEntries F O}
    {properties : List TimeoutProperty} {timeouts : Collected TimeoutProperty F}
    (h : parseTimeouts python name entries properties = .ok timeouts) :
    ∀ timeout ∈ timeouts.values, isTimeout timeout.2 := by
  rw [parseTimeouts] at h
  split at h
  · cases h
    exact fun timeout htimeout => absurd htimeout List.not_mem_nil
  · intro timeout htimeout
    obtain ⟨entry, -, hentry⟩ := collectEntries_mem h timeout htimeout
    exact (timeoutResult_kept hentry).2.2
  · cases h
    exact fun timeout htimeout => absurd htimeout List.not_mem_nil

omit [DecidableEq O] in
theorem timeoutsFromDict_valid {config : List (TimeoutProperty × F)}
    (h : ∀ timeout ∈ config, isTimeout timeout.2) :
    timeoutsFromDict python config = .ok fun property =>
      (config.lookup property).getD (PyFloat.ofRepr (.literal property.default)) := by
  have hparsed : config.mapM (fun (property, seconds) => do
      let value ← parseTimeoutSeconds python property (.inr seconds)
      return (property, value)) = .ok config := by
    induction config with
    | nil => rfl
    | cons timeout config ih =>
      rw [List.forall_mem_cons] at h
      rw [List.mapM_cons, ih h.2]
      simp [parseTimeoutSeconds, SettingsPython.toFloat, h.1, bind, Except.bind, pure, Except.pure]
  rw [timeoutsFromDict, hparsed]
  rfl

theorem parseTimeoutSection_valid (part : SettingsSection) {configured : Option (YamlValue F O)}
    {result : Collected TimeoutProperty F}
    (h : parseTimeoutSection python part.name part.known part.properties configured = .ok result) :
    ∀ timeout ∈ result.values, isTimeout timeout.2 := by
  obtain ⟨_, timeouts, -, htimeouts, rfl⟩ := (parseTimeoutSection_ok_iff _).mp h
  exact fun timeout htimeout => parseTimeouts_valid htimeouts timeout htimeout

theorem parseAdmin_valid {configured : Option (YamlValue F O)} {result : AdminSection F}
    (h : parseAdmin python configured = .ok result) :
    ∀ timeout ∈ result.timeouts, isTimeout timeout.2 := by
  obtain ⟨_, timeouts, -, htimeouts, rfl⟩ := parseAdmin_ok_iff.mp h
  exact parseTimeouts_valid htimeouts

def assembleSettings (path : Text) (data : YamlEntries F O) (readWarnings : List Text)
    (keymap : Collected Text Text) (admin : AdminSection F)
    (consumer producer : Collected TimeoutProperty F) : AppSettings F O where
  path := path
  keymap := keymap.values
  adminRefreshIntervalSeconds := admin.refreshInterval
  adminReadOnly := admin.readOnly
  theme := (parseTheme (getSetting data (text "theme"))).1
  customThemes := (parseCustomThemes (getSetting data (text "themes"))).1
  timeouts property :=
    ((admin.timeouts ++ consumer.values ++ producer.values).lookup property).getD
      (PyFloat.ofRepr (.literal property.default))
  warnings := readWarnings ++ keymap.warnings ++ admin.warnings ++ consumer.warnings ++
    producer.warnings ++ (parseTheme (getSetting data (text "theme"))).2 ++
      (parseCustomThemes (getSetting data (text "themes"))).2

theorem settingsOf_ok_iff {path : Text} {data : YamlEntries F O} {readWarnings : List Text}
    {settings : AppSettings F O} :
    settingsOf python path data readWarnings = .ok settings ↔
      ∃ keymap admin consumer producer,
        parseKeymap python path ((getSetting data (text "keymap")).getD (.dict [])) = .ok keymap ∧
        parseAdmin python (getSetting data (text "admin")) = .ok admin ∧
        parseTimeoutSection python (text "consumer") consumerSettings consumerTimeoutProperties
          (getSetting data (text "consumer")) = .ok consumer ∧
        parseTimeoutSection python (text "producer") producerSettings producerTimeoutProperties
          (getSetting data (text "producer")) = .ok producer ∧
        settings = assembleSettings path data readWarnings keymap admin consumer producer := by
  rw [settingsOf]
  simp only [bind, Except.bind]
  cases hkeymap : parseKeymap python path ((getSetting data (text "keymap")).getD (.dict [])) with
  | error e => simp
  | ok keymap =>
    cases hadmin : parseAdmin python (getSetting data (text "admin")) with
    | error e => simp
    | ok admin =>
      cases hconsumer : parseTimeoutSection python (text "consumer") consumerSettings
        consumerTimeoutProperties (getSetting data (text "consumer")) with
      | error e => simp
      | ok consumer =>
        cases hproducer : parseTimeoutSection python (text "producer") producerSettings
          producerTimeoutProperties (getSetting data (text "producer")) with
        | error e => simp
        | ok producer =>
          have hvalid : ∀ timeout ∈ admin.timeouts ++ consumer.values ++ producer.values,
              isTimeout timeout.2 := by
            simp only [List.forall_mem_append]
            exact ⟨⟨parseAdmin_valid hadmin, parseTimeoutSection_valid .consumer hconsumer⟩,
              parseTimeoutSection_valid .producer hproducer⟩
          simp only [timeoutsFromDict_valid hvalid, pure, Except.pure, Except.ok.injEq, exists_and_left,
            exists_eq_left']
          exact eq_comm

/-- The settings are returned if what the parts ask can be answered. -/
theorem settingsOf_returns_iff {path : Text} {data : YamlEntries F O} {readWarnings : List Text} :
    (∃ settings, settingsOf python path data readWarnings = .ok settings) ↔
      KeymapReads python data ∧ ∀ part : SettingsSection,
        SectionReads python part (getSetting data part.name) := by
  rw [← parseKeymap_returns_iff path]
  simp only [settingsOf_ok_iff, sectionReads_iff]
  constructor
  · rintro ⟨_, keymap, admin, consumer, producer, hkeymap, hadmin, hconsumer, hproducer, -⟩
    refine ⟨⟨keymap, hkeymap⟩, fun part => ?_⟩
    cases part with
    | admin =>
      obtain ⟨warnings, timeouts, hwarnings, htimeouts, -⟩ := parseAdmin_ok_iff.mp hadmin
      exact ⟨⟨warnings, hwarnings⟩, timeouts, htimeouts⟩
    | consumer =>
      obtain ⟨warnings, timeouts, hwarnings, htimeouts, -⟩ :=
        (parseTimeoutSection_ok_iff .consumer).mp hconsumer
      exact ⟨⟨warnings, hwarnings⟩, timeouts, htimeouts⟩
    | producer =>
      obtain ⟨warnings, timeouts, hwarnings, htimeouts, -⟩ :=
        (parseTimeoutSection_ok_iff .producer).mp hproducer
      exact ⟨⟨warnings, hwarnings⟩, timeouts, htimeouts⟩
  · rintro ⟨⟨keymap, hkeymap⟩, hparts⟩
    obtain ⟨⟨adminWarnings, hadminWarnings⟩, adminTimeouts, hadminTimeouts⟩ := hparts .admin
    obtain ⟨⟨consumerWarnings, hconsumerWarnings⟩, consumerTimeouts, hconsumerTimeouts⟩ :=
      hparts .consumer
    obtain ⟨⟨producerWarnings, hproducerWarnings⟩, producerTimeouts, hproducerTimeouts⟩ :=
      hparts .producer
    exact ⟨_, keymap, _, _, _, hkeymap,
      parseAdmin_ok_iff.mpr ⟨_, _, hadminWarnings, hadminTimeouts, rfl⟩,
      (parseTimeoutSection_ok_iff .consumer).mpr
        ⟨_, _, hconsumerWarnings, hconsumerTimeouts, rfl⟩,
      (parseTimeoutSection_ok_iff .producer).mpr
        ⟨_, _, hproducerWarnings, hproducerTimeouts, rfl⟩, rfl⟩

theorem settingsOf_valid
    (hdefaults : ∀ property : TimeoutProperty,
      isTimeout (PyFloat.ofRepr (.literal property.default) : F))
    {path : Text} {data : YamlEntries F O} (readWarnings : List Text) {settings : AppSettings F O}
    (h : settingsOf python path data readWarnings = .ok settings) : settings.Valid python := by
  obtain ⟨keymap, admin, consumer, producer, hkeymap, hadmin, hconsumer, hproducer, rfl⟩ :=
    settingsOf_ok_iff.mp h
  constructor
  · obtain ⟨_, _, -, -, rfl⟩ := parseAdmin_ok_iff.mp hadmin
    change (parseAdminRefreshInterval _).1 = 0 ∨ 5 ≤ (parseAdminRefreshInterval _).1
    rw [parseAdminRefreshInterval]
    split
    · exact .inr (by decide)
    · split_ifs with hvalid
      · simpa [isValidAdminRefreshInterval] using hvalid
      · exact .inr (by decide)
    · exact .inr (by decide)
  · intro property
    change isTimeout (((admin.timeouts ++ consumer.values ++ producer.values).lookup property).getD _)
    cases hfound : (admin.timeouts ++ consumer.values ++ producer.values).lookup property with
    | none => exact hdefaults property
    | some seconds =>
      have hmem : (property, seconds) ∈ admin.timeouts ++ consumer.values ++ producer.values := by
        obtain ⟨before, after, hsplit, -⟩ := List.lookup_eq_some_iff.mp hfound
        rw [hsplit]
        exact List.mem_append_right _ List.mem_cons_self
      rcases List.mem_append.mp hmem with hmem | hmem
      · rcases List.mem_append.mp hmem with hmem | hmem
        · exact parseAdmin_valid hadmin _ hmem
        · exact parseTimeoutSection_valid .consumer hconsumer _ hmem
      · exact parseTimeoutSection_valid .producer hproducer _ hmem
  · intro binding hbinding
    change binding ∈ keymap.values at hbinding
    cases hvalue : (getSetting data (text "keymap")).getD (.dict []) with
    | dict entries =>
      rw [hvalue] at hkeymap
      obtain ⟨entry, -, hentry⟩ := collectEntries_mem hkeymap binding hbinding
      exact (bindingResult_kept hentry).2
    | _ =>
      rw [hvalue] at hkeymap
      cases hkeymap
      exact absurd hbinding List.not_mem_nil

end Returns

section Erasing

theorem LosesOne.left {warnings warnings' : List Text} (h : LosesOne warnings warnings')
    (further : List Text) : LosesOne (further ++ warnings) (further ++ warnings') := by
  obtain ⟨earlier, warning, later, rfl, rfl⟩ := h
  exact ⟨further ++ earlier, warning, later, by simp, by simp⟩

theorem LosesOne.right {warnings warnings' : List Text} (h : LosesOne warnings warnings')
    (further : List Text) : LosesOne (warnings ++ further) (warnings' ++ further) := by
  obtain ⟨earlier, warning, later, rfl, rfl⟩ := h
  exact ⟨earlier, warning, later ++ further, by simp, by simp⟩

theorem losesOne_single (warning : Text) : LosesOne [warning] [] := ⟨[], warning, [], rfl, rfl⟩

variable [DecidableEq O]

theorem getSetting_eraseAt (data : YamlEntries F O) (key : YamlKey O) (name : Text) :
    getSetting (eraseAt [key] data) name =
      if YamlKey.str name = key then none else getSetting data name :=
  Dictionary.lookup_filter_ne data key (.str name)

theorem getSetting_eraseAt_nested {data entries : YamlEntries F O} {outer : Text}
    (hget : getSetting data outer = some (.dict entries)) (key : YamlKey O) (rest : List (YamlKey O))
    (name : Text) :
    getSetting (eraseAt (.str outer :: key :: rest) data) name =
      if name = outer then some (.dict (eraseAt (key :: rest) entries)) else getSetting data name := by
  have hlookup := Dictionary.lookup_map_update data (.str outer) (.str name) fun value =>
    match value with
    | .dict entries => .dict (eraseAt (key :: rest) entries)
    | value => value
  refine hlookup.trans ?_
  simp only [YamlKey.str.injEq]
  split_ifs with hname
  · subst hname
    rw [show data.lookup (.str name) = some (.dict entries) from hget]
    rfl
  · rfl

theorem mapM_ok_iff {α β : Type} {f : α → Outcome β} {items : List α} {results : List β} :
    items.mapM f = .ok results ↔ items.map f = results.map .ok := by
  rw [mapM_eq_ok, ← List.forall₂_eq_eq_eq, List.forall₂_map_left_iff, List.forall₂_map_right_iff]

theorem mapM_drop {α β : Type} {f : α → Outcome β} {before after : List α} {item : α}
    {results : List β} (h : (before ++ item :: after).mapM f = .ok results) :
    ∃ earlier result later, results = earlier ++ result :: later ∧
      (before ++ after).mapM f = .ok (earlier ++ later) := by
  rw [mapM_ok_iff, List.map_append, List.map_cons] at h
  obtain ⟨earlier, rest, rfl, hearlier, hrest⟩ := List.map_eq_append_iff.mp h.symm
  obtain ⟨result, later, rfl, -, hlater⟩ := List.map_eq_cons_iff.mp hrest
  refine ⟨earlier, result, later, rfl, mapM_ok_iff.mpr ?_⟩
  rw [List.map_append, List.map_append, hearlier, hlater]

/-- Mappings that are found have one value for each key too. -/
theorem DistinctKeys.get {depth : ℕ} {data entries : YamlEntries F O} {name : Text}
    (h : DistinctKeys (depth + 1) data) (hget : getSetting data name = some (.dict entries)) :
    DistinctKeys depth entries :=
  h.2 _ ((Dictionary.lookup_eq_some_iff h.1).mp hget) entries rfl

/-- The other settings stay when one is erased. -/
theorem getSetting_eraseAt_ne (data : YamlEntries F O) {changed name : Text} (hname : name ≠ changed) :
    getSetting (eraseAt [.str changed] data) name = getSetting data name := by
  rw [getSetting_eraseAt, if_neg fun h => hname (YamlKey.str.inj h)]

end Erasing

section Losing

variable [DecidableEq O] [PyFloat F]

/-- What only the section `admin` holds: the refresh interval and whether it is read-only, with the
warnings about them. -/
def sectionExtra (part : SettingsSection) (entries : YamlEntries F O) : ℤ × Bool × List Text :=
  match part with
  | .admin => ((parseAdminRefreshInterval entries).1, (parseAdminReadOnly entries).1,
      (parseAdminRefreshInterval entries).2 ++ (parseAdminReadOnly entries).2)
  | _ => (defaultAdminRefreshIntervalSeconds, false, [])

def SectionLoses (python : SettingsPython F O) (part : SettingsSection)
    (configured configured' : Option (YamlValue F O)) : Prop :=
  ∀ warnings timeouts, sectionWarnings python part configured = .ok warnings →
    parseTimeouts python part.name (sectionEntries configured) part.properties = .ok timeouts →
    ∃ warnings' timeouts', sectionWarnings python part configured' = .ok warnings' ∧
      parseTimeouts python part.name (sectionEntries configured') part.properties = .ok timeouts' ∧
      timeouts'.values = timeouts.values ∧
      (sectionExtra part (sectionEntries configured')).1 =
        (sectionExtra part (sectionEntries configured)).1 ∧
      (sectionExtra part (sectionEntries configured')).2.1 =
        (sectionExtra part (sectionEntries configured)).2.1 ∧
      LosesOne (warnings ++ (sectionExtra part (sectionEntries configured)).2.2 ++ timeouts.warnings)
        (warnings' ++ (sectionExtra part (sectionEntries configured')).2.2 ++ timeouts'.warnings)

/-- A part of the settings holds the same with one warning less. -/
inductive PartLoses (python : SettingsPython F O) (path : Text) :
    Text → Option (YamlValue F O) → Option (YamlValue F O) → Prop
  | keymap {value value'}
      (h : ∀ keymap, parseKeymap python path (value.getD (.dict [])) = .ok keymap →
        ∃ keymap', parseKeymap python path (value'.getD (.dict [])) = .ok keymap' ∧
          keymap'.values = keymap.values ∧ LosesOne keymap.warnings keymap'.warnings) :
      PartLoses python path (text "keymap") value value'
  | part (part : SettingsSection) {value value'} (h : SectionLoses python part value value') :
      PartLoses python path part.name value value'
  | theme {value value'} (hvalue : (parseTheme value').1 = (parseTheme value).1)
      (hwarnings : LosesOne (parseTheme value).2 (parseTheme value').2) :
      PartLoses python path (text "theme") value value'
  | themes {value value'} (hvalue : (parseCustomThemes value').1 = (parseCustomThemes value).1)
      (hwarnings : LosesOne (parseCustomThemes value).2 (parseCustomThemes value').2) :
      PartLoses python path (text "themes") value value'

variable {python : SettingsPython F O}

theorem parseAdmin_loses {configured configured' : Option (YamlValue F O)}
    (h : SectionLoses python .admin configured configured') {admin : AdminSection F}
    (hadmin : parseAdmin python configured = .ok admin) :
    ∃ admin', parseAdmin python configured' = .ok admin' ∧
      admin' = { admin with warnings := admin'.warnings } ∧
        LosesOne admin.warnings admin'.warnings := by
  obtain ⟨warnings, timeouts, hwarnings, htimeouts, rfl⟩ := parseAdmin_ok_iff.mp hadmin
  obtain ⟨warnings', timeouts', hwarnings', htimeouts', hvalues, hinterval, hreadOnly, hloses⟩ :=
    h warnings timeouts hwarnings htimeouts
  refine ⟨_, parseAdmin_ok_iff.mpr ⟨warnings', timeouts', hwarnings', htimeouts', rfl⟩, ?_, ?_⟩
  · simp only [sectionExtra] at hinterval hreadOnly
    rw [hvalues, hinterval, hreadOnly]
  · simpa [sectionExtra] using hloses

theorem parseTimeoutSection_loses {part : SettingsSection} (hpart : part ≠ .admin)
    {configured configured' : Option (YamlValue F O)}
    (h : SectionLoses python part configured configured') {result : Collected TimeoutProperty F}
    (hresult : parseTimeoutSection python part.name part.known part.properties configured = .ok result) :
    ∃ result', parseTimeoutSection python part.name part.known part.properties configured' =
        .ok result' ∧ result'.values = result.values ∧ LosesOne result.warnings result'.warnings := by
  obtain ⟨warnings, timeouts, hwarnings, htimeouts, rfl⟩ := (parseTimeoutSection_ok_iff _).mp hresult
  obtain ⟨warnings', timeouts', hwarnings', htimeouts', hvalues, -, -, hloses⟩ :=
    h warnings timeouts hwarnings htimeouts
  have hextra : ∀ entries : YamlEntries F O, (sectionExtra part entries).2.2 = [] := by
    intro entries
    cases part with
    | admin => exact absurd rfl hpart
    | consumer => rfl
    | producer => rfl
  rw [hextra, hextra, List.append_nil, List.append_nil] at hloses
  exact ⟨_, (parseTimeoutSection_ok_iff _).mpr ⟨warnings', timeouts', hwarnings', htimeouts', rfl⟩,
    hvalues, hloses⟩

theorem settingsOf_loses {path changed : Text} {data data' : YamlEntries F O}
    {readWarnings : List Text} {settings : AppSettings F O}
    (hother : ∀ name, name ≠ changed → getSetting data' name = getSetting data name)
    (hpart : PartLoses python path changed (getSetting data changed) (getSetting data' changed))
    (h : settingsOf python path data readWarnings = .ok settings) :
    ∃ settings', settingsOf python path data' readWarnings = .ok settings' ∧
      settings' = { settings with warnings := settings'.warnings } ∧
        LosesOne settings.warnings settings'.warnings := by
  obtain ⟨keymap, admin, consumer, producer, hkeymap, hadmin, hconsumer, hproducer, rfl⟩ :=
    settingsOf_ok_iff.mp h
  generalize hvalue : getSetting data changed = value at hpart
  generalize hvalue' : getSetting data' changed = value' at hpart
  cases hpart with
  | keymap hloses =>
    subst hvalue hvalue'
    obtain ⟨keymap', hkeymap', hvalues, hloses⟩ := hloses keymap hkeymap
    rw [← hother _ (by decide)] at hadmin hconsumer hproducer
    refine ⟨_, settingsOf_ok_iff.mpr ⟨keymap', admin, consumer, producer, hkeymap', hadmin, hconsumer,
      hproducer, rfl⟩, ?_, ?_⟩
    · simp only [assembleSettings, hvalues, hother (text "theme") (by decide),
        hother (text "themes") (by decide)]
    · simp only [assembleSettings, hother (text "theme") (by decide),
        hother (text "themes") (by decide)]
      exact (((((hloses.left readWarnings).right _).right _).right _).right _).right _
  | theme hsame hloses =>
    subst hvalue hvalue'
    rw [← hother _ (by decide)] at hkeymap hadmin hconsumer hproducer
    refine ⟨_, settingsOf_ok_iff.mpr ⟨keymap, admin, consumer, producer, hkeymap, hadmin, hconsumer,
      hproducer, rfl⟩, ?_, ?_⟩
    · simp only [assembleSettings, hsame, hother (text "themes") (by decide)]
    · simp only [assembleSettings, hother (text "themes") (by decide)]
      exact (hloses.left _).right _
  | themes hsame hloses =>
    subst hvalue hvalue'
    rw [← hother _ (by decide)] at hkeymap hadmin hconsumer hproducer
    refine ⟨_, settingsOf_ok_iff.mpr ⟨keymap, admin, consumer, producer, hkeymap, hadmin, hconsumer,
      hproducer, rfl⟩, ?_, ?_⟩
    · simp only [assembleSettings, hsame, hother (text "theme") (by decide)]
    · simp only [assembleSettings, hother (text "theme") (by decide)]
      exact hloses.left _
  | part part hloses =>
    subst hvalue hvalue'
    cases part with
    | admin =>
      obtain ⟨admin', hadmin', hsame, hloses⟩ := parseAdmin_loses hloses hadmin
      rw [← hother _ (by decide)] at hkeymap hconsumer hproducer
      refine ⟨_, settingsOf_ok_iff.mpr ⟨keymap, admin', consumer, producer, hkeymap, hadmin',
        hconsumer, hproducer, rfl⟩, ?_, ?_⟩
      · rw [hsame]
        simp only [assembleSettings, hother (text "theme") (by decide),
          hother (text "themes") (by decide)]
      · simp only [assembleSettings, hother (text "theme") (by decide),
          hother (text "themes") (by decide)]
        exact ((((hloses.left _).right _).right _).right _).right _
    | consumer =>
      obtain ⟨consumer', hconsumer', hsame, hloses⟩ :=
        parseTimeoutSection_loses (by decide) hloses hconsumer
      rw [← hother _ (by decide)] at hkeymap hadmin hproducer
      refine ⟨_, settingsOf_ok_iff.mpr ⟨keymap, admin, consumer', producer, hkeymap, hadmin,
        hconsumer', hproducer, rfl⟩, ?_, ?_⟩
      · simp only [assembleSettings, hsame, hother (text "theme") (by decide),
          hother (text "themes") (by decide)]
      · simp only [assembleSettings, hother (text "theme") (by decide),
          hother (text "themes") (by decide)]
        exact (((hloses.left _).right _).right _).right _
    | producer =>
      obtain ⟨producer', hproducer', hsame, hloses⟩ :=
        parseTimeoutSection_loses (by decide) hloses hproducer
      rw [← hother _ (by decide)] at hkeymap hadmin hconsumer
      refine ⟨_, settingsOf_ok_iff.mpr ⟨keymap, admin, consumer, producer', hkeymap, hadmin,
        hconsumer, hproducer', rfl⟩, ?_, ?_⟩
      · simp only [assembleSettings, hsame, hother (text "theme") (by decide),
          hother (text "themes") (by decide)]
      · simp only [assembleSettings, hother (text "theme") (by decide),
          hother (text "themes") (by decide)]
        exact ((hloses.left _).right _).right _

theorem timeoutsSetting_known (part : SettingsSection) : timeoutsSetting ∈ part.known := by
  cases part <;> decide

/-- The timeouts of a section only depend on that setting. -/
theorem parseTimeouts_congr {name : Text} {entries entries' : YamlEntries F O}
    {properties : List TimeoutProperty}
    (h : getSetting entries' timeoutsSetting = getSetting entries timeoutsSetting) :
    parseTimeouts python name entries' properties = parseTimeouts python name entries properties := by
  rw [parseTimeouts, parseTimeouts, h]

omit [PyFloat F] in
theorem sectionExtra_congr {part : SettingsSection} {entries entries' : YamlEntries F O}
    (hinterval : part = .admin → getSetting entries' adminRefreshIntervalSetting =
      getSetting entries adminRefreshIntervalSetting)
    (hreadOnly : part = .admin →
      getSetting entries' adminReadOnlySetting = getSetting entries adminReadOnlySetting) :
    sectionExtra part entries' = sectionExtra part entries := by
  cases part with
  | admin =>
    simp only [sectionExtra, parseAdminRefreshInterval, parseAdminReadOnly, hinterval rfl, hreadOnly rfl]
  | consumer => rfl
  | producer => rfl

omit [PyFloat F] in
/-- A known setting can be erased without a change of what is unknown. -/
theorem sectionWarnings_erase_known (part : SettingsSection) {key : YamlKey O}
    (hknown : isKnownSetting part.known key) (entries : YamlEntries F O) :
    sectionWarnings python part (some (.dict (eraseAt [key] entries))) =
      sectionWarnings python part (some (.dict entries)) := by
  simp only [sectionWarnings, eraseAt]
  congr 1
  induction entries with
  | nil => rfl
  | cons entry entries ih =>
    by_cases hkey : entry.1 = key
    · rw [List.filter_cons_of_neg (by simp [hkey]), ih, List.map_cons,
        List.filter_cons_of_neg (by simp [hkey, hknown])]
    · rw [List.filter_cons_of_pos (by simp [hkey]), List.map_cons, List.map_cons, List.filter_cons,
        List.filter_cons, ih]

omit [DecidableEq O] [PyFloat F] in
theorem isKnownSetting_str {known : List Text} {name : Text} (h : name ∈ known) :
    isKnownSetting (O := O) known (.str name) :=
  List.contains_iff_mem.mpr h

theorem sectionLoses_value (part : SettingsSection) {value : YamlValue F O} (hdict : ¬ value.IsDict) :
    SectionLoses python part (some value) none := by
  have hentries : sectionEntries (some value) = [] := by
    cases value with
    | dict entries => exact absurd ⟨entries, rfl⟩ hdict
    | _ => rfl
  have hwarning : ∃ warning, sectionWarnings python part (some value) = .ok [warning] := by
    cases value with
    | dict entries => exact absurd ⟨entries, rfl⟩ hdict
    | _ => exact ⟨_, rfl⟩
  obtain ⟨warning, hwarning⟩ := hwarning
  intro warnings timeouts hwarnings htimeouts
  rw [hwarning] at hwarnings
  cases hwarnings
  rw [hentries] at htimeouts ⊢
  exact ⟨[], timeouts, rfl, htimeouts, rfl, rfl, rfl, ((losesOne_single warning).right _).right _⟩

theorem sectionLoses_unknown {part : SettingsSection} {entries : YamlEntries F O}
    {entry : YamlKey O × YamlValue F O} (hkeys : (entries.map Prod.fst).Nodup)
    (hentry : entry ∈ entries) (hunknown : isKnownSetting part.known entry.1 = false) :
    SectionLoses python part (some (.dict entries)) (some (.dict (eraseAt [entry.1] entries))) := by
  have hget : ∀ name ∈ part.known, getSetting (eraseAt [entry.1] entries) name =
      getSetting entries name := by
    intro name hname
    rw [getSetting_eraseAt, if_neg]
    intro hkey
    rw [← hkey, isKnownSetting_str hname] at hunknown
    cases hunknown
  intro warnings timeouts hwarnings htimeouts
  obtain ⟨before, after, hsplit, herase⟩ := Dictionary.exists_split hkeys hentry
  have hloses : ∃ warnings', sectionWarnings python part (some (.dict (eraseAt [entry.1] entries))) =
      .ok warnings' ∧ LosesOne warnings warnings' := by
    simp only [sectionWarnings, eraseAt] at hwarnings ⊢
    rw [herase, List.map_append, List.filter_append]
    rw [hsplit, List.map_append, List.map_cons, List.filter_append,
      List.filter_cons_of_pos (by simp [hunknown])] at hwarnings
    obtain ⟨earlier, warning, later, rfl, hdropped⟩ := mapM_drop hwarnings
    exact ⟨_, hdropped, earlier, warning, later, rfl, rfl⟩
  obtain ⟨warnings', hwarnings', hloses⟩ := hloses
  refine ⟨warnings', timeouts, hwarnings', ?_, rfl, ?_⟩
  · exact (parseTimeouts_congr (hget _ (timeoutsSetting_known part))).trans htimeouts
  · have hextra : sectionExtra part (eraseAt [entry.1] entries) = sectionExtra part entries := by
      refine sectionExtra_congr ?_ ?_
      · rintro rfl
        exact hget _ (by decide)
      · rintro rfl
        exact hget _ (by decide)
    simp only [sectionEntries, hextra, true_and]
    exact (hloses.right _).right _

theorem sectionLoses_timeouts {part : SettingsSection} {entries entries' : YamlEntries F O}
    (hwarnings : sectionWarnings python part (some (.dict entries')) =
      sectionWarnings python part (some (.dict entries)))
    (hother : ∀ name, name ≠ timeoutsSetting → getSetting entries' name = getSetting entries name)
    (htimeouts : ∀ timeouts, parseTimeouts python part.name entries part.properties = .ok timeouts →
      ∃ timeouts', parseTimeouts python part.name entries' part.properties = .ok timeouts' ∧
        timeouts'.values = timeouts.values ∧ LosesOne timeouts.warnings timeouts'.warnings) :
    SectionLoses python part (some (.dict entries)) (some (.dict entries')) := by
  intro warnings timeouts hsection hparsed
  obtain ⟨timeouts', hparsed', hvalues, hloses⟩ := htimeouts timeouts hparsed
  have hextra : sectionExtra part entries' = sectionExtra part entries :=
    sectionExtra_congr (fun _ => hother _ (by decide)) (fun _ => hother _ (by decide))
  refine ⟨warnings, timeouts', hwarnings.trans hsection, hparsed', hvalues, ?_⟩
  simp only [sectionEntries, hextra, true_and]
  exact hloses.left _

theorem sectionLoses_timeoutsValue (part : SettingsSection) {entries : YamlEntries F O}
    {value : YamlValue F O} (hvalue : getSetting entries timeoutsSetting = some value)
    (hdict : ¬ value.IsDict) :
    SectionLoses python part (some (.dict entries))
      (some (.dict (eraseAt [.str timeoutsSetting] entries))) := by
  refine sectionLoses_timeouts
    (sectionWarnings_erase_known part (isKnownSetting_str (timeoutsSetting_known part)) entries)
    (fun name hname => getSetting_eraseAt_ne entries hname) ?_
  intro timeouts htimeouts
  have hnone : getSetting (eraseAt [.str timeoutsSetting] entries) timeoutsSetting = none := by
    rw [getSetting_eraseAt, if_pos rfl]
  rw [parseTimeouts, hvalue] at htimeouts
  refine ⟨{}, by rw [parseTimeouts, hnone], ?_⟩
  cases value with
  | dict configured => exact absurd ⟨configured, rfl⟩ hdict
  | _ =>
    cases htimeouts
    exact ⟨rfl, losesOne_single _⟩

theorem sectionLoses_timeout (part : SettingsSection) {entries configured : YamlEntries F O}
    {entry : YamlKey O × YamlValue F O}
    (hconfigured : getSetting entries timeoutsSetting = some (.dict configured))
    (hkeys : (configured.map Prod.fst).Nodup) (hentry : entry ∈ configured)
    (hinvalid : ¬ ValidTimeout python part.properties entry) :
    SectionLoses python part (some (.dict entries))
      (some (.dict (eraseAt [.str timeoutsSetting, entry.1] entries))) := by
  have hget := getSetting_eraseAt_nested hconfigured entry.1 []
  refine sectionLoses_timeouts ?_ ?_ ?_
  · have hsame : (eraseAt [.str timeoutsSetting, entry.1] entries).map Prod.fst =
        entries.map Prod.fst := by
      rw [eraseAt, List.map_map]
      · refine List.map_congr_left fun other _ => ?_
        dsimp only [Function.comp_apply]
        split_ifs <;> rfl
      · exact List.cons_ne_nil _ _
    simp only [sectionWarnings, hsame]
  · intro name hname
    rw [hget, if_neg hname]
  · intro timeouts htimeouts
    rw [parseTimeouts, hconfigured] at htimeouts
    rw [parseTimeouts, hget, if_pos rfl]
    obtain ⟨entryResult, hresult⟩ := collectEntries_returns_iff.mp ⟨timeouts, htimeouts⟩ entry hentry
    obtain ⟨warning, rfl⟩ := timeoutResult_ignored hresult hinvalid
    obtain ⟨before, after, hsplit, herase⟩ := Dictionary.exists_split hkeys hentry
    rw [hsplit] at htimeouts
    obtain ⟨earlier, later, hwarnings, hdropped⟩ := collectEntries_drop hresult htimeouts
    refine ⟨_, (congrArg _ herase).trans hdropped, rfl, ?_⟩
    exact ⟨earlier, warning, later, hwarnings, rfl⟩

/-- A change of one of the other settings of the section `admin`. -/
theorem sectionLoses_extra {entries : YamlEntries F O} {name : Text} (hname : name ∈ adminSettings)
    (htimeouts : name ≠ timeoutsSetting)
    (hinterval : (sectionExtra .admin (eraseAt [.str name] entries)).1 = (sectionExtra .admin entries).1)
    (hreadOnly : (sectionExtra .admin (eraseAt [.str name] entries)).2.1 =
      (sectionExtra .admin entries).2.1)
    (hloses : LosesOne (sectionExtra .admin entries).2.2
      (sectionExtra .admin (eraseAt [.str name] entries)).2.2) :
    SectionLoses python .admin (some (.dict entries)) (some (.dict (eraseAt [.str name] entries))) := by
  intro warnings timeouts hwarnings hparsed
  refine ⟨warnings, timeouts, ?_, ?_, rfl, hinterval, hreadOnly, (hloses.left _).right _⟩
  · exact (sectionWarnings_erase_known .admin (isKnownSetting_str hname) entries).trans hwarnings
  · exact (parseTimeouts_congr (getSetting_eraseAt_ne entries htimeouts.symm)).trans hparsed

theorem sectionLoses_refreshInterval {entries : YamlEntries F O} {value : YamlValue F O}
    (hvalue : getSetting entries adminRefreshIntervalSetting = some value)
    (hinvalid : ∀ interval, value = .int interval → ¬ (interval = 0 ∨ 5 ≤ interval)) :
    SectionLoses python .admin (some (.dict entries))
      (some (.dict (eraseAt [.str adminRefreshIntervalSetting] entries))) := by
  have hnone : getSetting (eraseAt [.str adminRefreshIntervalSetting] entries)
      adminRefreshIntervalSetting = none := by
    rw [getSetting_eraseAt, if_pos rfl]
  have hreadOnly : parseAdminReadOnly (eraseAt [.str adminRefreshIntervalSetting] entries) =
      parseAdminReadOnly entries := by
    rw [parseAdminReadOnly, parseAdminReadOnly, getSetting_eraseAt_ne entries (by decide)]
  have hdefault : parseAdminRefreshInterval (eraseAt [.str adminRefreshIntervalSetting] entries) =
      (defaultAdminRefreshIntervalSeconds, []) := by
    rw [parseAdminRefreshInterval, hnone]
  have hignored : ∃ warning, parseAdminRefreshInterval entries =
      (defaultAdminRefreshIntervalSeconds, [warning]) := by
    rw [parseAdminRefreshInterval, hvalue]
    cases value with
    | int interval =>
      dsimp only
      rw [if_neg (by simpa [isValidAdminRefreshInterval] using hinvalid interval rfl)]
      exact ⟨_, rfl⟩
    | _ => exact ⟨_, rfl⟩
  obtain ⟨warning, hignored⟩ := hignored
  refine sectionLoses_extra (by decide) (by decide) ?_ ?_ ?_
  · simp only [sectionExtra, hdefault, hignored]
  · simp only [sectionExtra, hreadOnly]
  · simp only [sectionExtra, hdefault, hignored, hreadOnly]
    exact (losesOne_single warning).right _

theorem sectionLoses_readOnly {entries : YamlEntries F O} {value : YamlValue F O}
    (hvalue : getSetting entries adminReadOnlySetting = some value)
    (hinvalid : ∀ readOnly, value ≠ .bool readOnly) :
    SectionLoses python .admin (some (.dict entries))
      (some (.dict (eraseAt [.str adminReadOnlySetting] entries))) := by
  have hnone : getSetting (eraseAt [.str adminReadOnlySetting] entries) adminReadOnlySetting = none := by
    rw [getSetting_eraseAt, if_pos rfl]
  have hinterval : parseAdminRefreshInterval (eraseAt [.str adminReadOnlySetting] entries) =
      parseAdminRefreshInterval entries := by
    rw [parseAdminRefreshInterval, parseAdminRefreshInterval, getSetting_eraseAt_ne entries (by decide)]
  have hdefault : parseAdminReadOnly (eraseAt [.str adminReadOnlySetting] entries) = (false, []) := by
    rw [parseAdminReadOnly, hnone]
  have hignored : ∃ warning, parseAdminReadOnly entries = (false, [warning]) := by
    rw [parseAdminReadOnly, hvalue]
    cases value with
    | bool readOnly => exact absurd rfl (hinvalid readOnly)
    | _ => exact ⟨_, rfl⟩
  obtain ⟨warning, hignored⟩ := hignored
  refine sectionLoses_extra (by decide) (by decide) ?_ ?_ ?_
  · simp only [sectionExtra, hinterval]
  · simp only [sectionExtra, hdefault, hignored]
  · simp only [sectionExtra, hdefault, hignored, hinterval]
    exact (losesOne_single warning).left _

theorem partLoses_section {path : Text} (part : SettingsSection) {data entries : YamlEntries F O}
    {key : YamlKey O} {rest : List (YamlKey O)} (hget : getSetting data part.name = some (.dict entries))
    (h : SectionLoses python part (some (.dict entries)) (some (.dict (eraseAt (key :: rest) entries)))) :
    ∃ changed,
      (∀ name, name ≠ changed → getSetting (eraseAt (.str part.name :: key :: rest) data) name =
        getSetting data name) ∧
      PartLoses python path changed (getSetting data changed)
        (getSetting (eraseAt (.str part.name :: key :: rest) data) changed) := by
  have hnested := getSetting_eraseAt_nested hget key rest
  refine ⟨part.name, ?_, .part part ?_⟩
  · intro name hname
    rw [hnested, if_neg hname]
  · rw [hnested, if_pos rfl, hget]
    exact h

theorem partLoses_setting {path changed : Text} {data : YamlEntries F O} {value : YamlValue F O}
    (hget : getSetting data changed = some value)
    (h : PartLoses python path changed (some value) none) :
    ∃ changed', (∀ name, name ≠ changed' → getSetting (eraseAt [.str changed] data) name =
        getSetting data name) ∧
      PartLoses python path changed' (getSetting data changed')
        (getSetting (eraseAt [.str changed] data) changed') := by
  refine ⟨changed, fun name hname => getSetting_eraseAt_ne data hname, ?_⟩
  rw [getSetting_eraseAt, if_pos rfl, hget]
  exact h

/-- Whatever is invalid, one part of the settings loses its warning. -/
theorem InvalidEntry.partLoses {data : YamlEntries F O} (hdistinct : DistinctKeys 3 data)
    {erased : List (YamlKey O)} (h : InvalidEntry python data erased) (path : Text) :
    ∃ changed,
      (∀ name, name ≠ changed → getSetting (eraseAt erased data) name = getSetting data name) ∧
      PartLoses python path changed (getSetting data changed)
        (getSetting (eraseAt erased data) changed) := by
  cases h with
  | keymap hget hdict =>
    rename_i value
    refine partLoses_setting hget (.keymap ?_)
    intro keymap hkeymap
    refine ⟨{}, rfl, ?_⟩
    cases value with
    | dict entries => exact absurd ⟨entries, rfl⟩ hdict
    | _ =>
      cases hkeymap
      exact ⟨rfl, losesOne_single _⟩
  | binding hget hentry hinvalid =>
    rename_i entries entry
    have hnested := getSetting_eraseAt_nested hget entry.1 []
    refine ⟨text "keymap", ?_, .keymap ?_⟩
    · intro name hname
      rw [hnested, if_neg hname]
    · intro keymap hkeymap
      rw [hnested, if_pos rfl]
      rw [hget] at hkeymap
      obtain ⟨entryResult, hresult⟩ := collectEntries_returns_iff.mp ⟨keymap, hkeymap⟩ entry hentry
      obtain ⟨warning, rfl⟩ := bindingResult_ignored hresult hinvalid
      obtain ⟨before, after, hsplit, herase⟩ :=
        Dictionary.exists_split (hdistinct.get hget).1 hentry
      rw [hsplit] at hkeymap
      obtain ⟨earlier, later, hwarnings, hdropped⟩ := collectEntries_drop hresult hkeymap
      exact ⟨_, (congrArg _ herase).trans hdropped, rfl, earlier, warning, later, hwarnings, rfl⟩
  | sectionValue hget hdict => exact partLoses_setting hget (.part _ (sectionLoses_value _ hdict))
  | unknownSetting hget hentry hunknown =>
    exact partLoses_section _ hget (sectionLoses_unknown (hdistinct.get hget).1 hentry hunknown)
  | refreshInterval hget hvalue hinvalid =>
    exact partLoses_section .admin hget (sectionLoses_refreshInterval hvalue hinvalid)
  | readOnly hget hvalue hinvalid =>
    exact partLoses_section .admin hget (sectionLoses_readOnly hvalue hinvalid)
  | timeouts hget hvalue hdict =>
    exact partLoses_section _ hget (sectionLoses_timeoutsValue _ hvalue hdict)
  | timeout hget hconfigured hentry hinvalid =>
    exact partLoses_section _ hget
      (sectionLoses_timeout _ hconfigured ((hdistinct.get hget).get hconfigured).1 hentry hinvalid)
  | theme hget hnull hinvalid =>
    rename_i value
    have hignored : ∃ warning, parseTheme (some value) = (none, [warning]) := by
      cases value with
      | null => exact absurd rfl hnull
      | str theme => exact ⟨_, if_pos (hinvalid theme rfl)⟩
      | _ => exact ⟨_, rfl⟩
    obtain ⟨warning, hignored⟩ := hignored
    refine partLoses_setting hget (.theme ?_ ?_) <;> rw [hignored]
    · rfl
    · exact losesOne_single warning
  | themes hget hnull hdict =>
    rename_i value
    have hignored : ∃ warning, parseCustomThemes (some value) = ([], [warning]) := by
      cases value with
      | null => exact absurd rfl hnull
      | dict themes => exact absurd ⟨themes, rfl⟩ hdict
      | _ => exact ⟨_, rfl⟩
    obtain ⟨warning, hignored⟩ := hignored
    refine partLoses_setting hget (.themes ?_ ?_) <;> rw [hignored]
    · rfl
    · exact losesOne_single warning

end Losing

section Loading

variable [DecidableEq O] [PyFloat F] {python : SettingsPython F O} {file : SettingsFile F O}

omit [DecidableEq O] [PyFloat F] in
/-- An exception that is not caught escapes; everything else yields data, which is empty unless the
file is a mapping. -/
theorem readSettings_eq (hpresent : file.present = .ok true) :
    (∃ e, file.content = .error e ∧ e.isInstance [.osError, .yamlError] = false ∧
      readSettings file = .error e) ∨
    (∃ data, file.content = .ok (.dict data) ∧ readSettings file = .ok (data, [])) ∨
    (∀ e, file.content = .error e → e.isInstance [.osError, .yamlError]) ∧
      (∀ data, file.content ≠ .ok (.dict data)) ∧
      ∃ warnings, readSettings file = .ok ([], warnings) ∧
        (file.content ≠ .ok .null → ∃ warning, warnings = [warning]) := by
  rw [readSettings, hpresent]
  cases file.content with
  | error e =>
    cases he : e.isInstance [.osError, .yamlError] with
    | false => exact .inl ⟨e, rfl, he, by simp [he]⟩
    | true =>
      refine .inr (.inr ⟨?_, nofun, [text "Could not read " ++ file.path ++ text ": " ++ e.message], ?_⟩)
      · rintro e' ⟨⟩
        exact he
      · exact ⟨by simp [he], fun _ => ⟨_, rfl⟩⟩
  | ok value =>
    cases value with
    | dict data => exact .inr (.inl ⟨data, rfl, rfl⟩)
    | null => exact .inr (.inr ⟨nofun, nofun, [], rfl, fun h => absurd rfl h⟩)
    | _ => exact .inr (.inr ⟨nofun, nofun, _, rfl, fun _ => ⟨_, rfl⟩⟩)

theorem loadSettings_of_read {data : YamlEntries F O} {warnings : List Text}
    (h : readSettings file = .ok (data, warnings)) :
    loadSettings python file = settingsOf python file.path data warnings := by
  rw [loadSettings, h]
  rfl

/-- The settings are returned just when the file loads. -/
theorem loadSettings_returns_iff :
    (∃ settings, loadSettings python file = .ok settings) ↔ file.Loads python := by
  have hempty : KeymapReads python [] ∧ ∀ part : SettingsSection,
      SectionReads python part (getSetting [] part.name) := by
    simp [KeymapReads, SectionReads, getSetting]
  rw [SettingsFile.Loads]
  cases hpresent : file.present with
  | error e =>
    rw [loadSettings, readSettings, hpresent]
    exact ⟨nofun, fun h => absurd h.1 nofun⟩
  | ok found =>
    cases found with
    | false =>
      have hread : readSettings file = .ok ([], []) := by
        rw [readSettings, hpresent]
      rw [loadSettings_of_read hread, settingsOf_returns_iff]
      exact ⟨fun _ => ⟨⟨false, rfl⟩, nofun⟩, fun _ => hempty⟩
    | true =>
      rcases readSettings_eq hpresent with ⟨e, hcontent, he, hread⟩ | ⟨data, hcontent, hread⟩ |
        ⟨hcaught, hdict, warnings, hread, -⟩
      · rw [loadSettings, hread, hcontent]
        constructor
        · rintro ⟨_, ⟨⟩⟩
        · intro h
          rw [(h.2 rfl).1 e rfl] at he
          cases he
      · rw [loadSettings_of_read hread, settingsOf_returns_iff, hcontent]
        constructor
        · intro h
          refine ⟨⟨true, rfl⟩, fun _ => ⟨nofun, ?_⟩⟩
          rintro _ ⟨⟩
          exact h
        · intro h
          exact (h.2 rfl).2 data rfl
      · rw [loadSettings_of_read hread, settingsOf_returns_iff]
        exact ⟨fun _ => ⟨⟨true, rfl⟩, fun _ => ⟨hcaught, fun data hdata => absurd hdata (hdict data)⟩⟩,
          fun _ => hempty⟩

theorem loadSettings_dict (file : SettingsFile F O) (hpresent : file.present = .ok true) {data : YamlEntries F O}
    (hcontent : file.content = .ok (.dict data)) :
    loadSettings python file = settingsOf python file.path data [] := by
  refine loadSettings_of_read ?_
  rw [readSettings, hpresent, hcontent]

/-- A file that can be read, but not used, yields the defaults with a warning. -/
theorem loadSettings_unusable (hpresent : file.present = .ok true) (hloads : file.Loads python)
    (hunusable : ∀ value, file.content = .ok value → ¬ value.IsDict ∧ value ≠ .null) :
    ∃ warning, loadSettings python file = settingsOf python file.path [] [warning] := by
  rcases readSettings_eq hpresent with ⟨e, hcontent, he, -⟩ | ⟨data, hcontent, -⟩ |
    ⟨-, -, warnings, hread, hwarning⟩
  · rw [(hloads.2 hpresent).1 e hcontent] at he
    cases he
  · exact absurd ⟨data, rfl⟩ (hunusable _ hcontent).1
  · obtain ⟨warning, rfl⟩ := hwarning fun hnull => (hunusable _ hnull).2 rfl
    exact ⟨warning, loadSettings_of_read hread⟩

/-- Without data there is no warning but those about the file. -/
theorem settingsOf_nil (python : SettingsPython F O) (path : Text) (readWarnings : List Text) :
    ∃ settings : AppSettings F O, settingsOf python path [] readWarnings = .ok settings ∧
      settings.warnings = readWarnings ∧
        settingsOf python path [] [] = .ok { settings with warnings := [] } := by
  have hparts : ∀ readWarnings : List Text, settingsOf python path [] readWarnings =
      .ok (assembleSettings path [] readWarnings {} ⟨defaultAdminRefreshIntervalSeconds, false, [], []⟩
        {} {}) := by
    intro readWarnings
    refine settingsOf_ok_iff.mpr ⟨_, _, _, _, ?_, ?_, ?_, ?_, rfl⟩ <;>
      simp [getSetting, parseKeymap, collectEntries, parseAdmin, parseTimeoutSection, parseSection,
        parseTimeouts, parseAdminRefreshInterval, parseAdminReadOnly, bind, Except.bind, pure, Except.pure]
  refine ⟨_, hparts readWarnings, ?_, (hparts []).trans ?_⟩ <;>
    simp [assembleSettings, parseTheme, parseCustomThemes, getSetting]

/-- The settings load without an exception, and as they should, just when the file raises nothing but
what is caught and what its data asks can be answered. -/
theorem loadSettings_iff
    (hdefaults : ∀ property : TimeoutProperty,
      isTimeout (PyFloat.ofRepr (.literal property.default) : F)) :
    file.Meets python ↔ file.Loads python := by
  constructor
  · rintro ⟨settings, hsettings, -⟩
    exact loadSettings_returns_iff.mp ⟨settings, hsettings⟩
  · intro hloads
    obtain ⟨settings, hsettings⟩ := loadSettings_returns_iff.mpr hloads
    refine ⟨settings, hsettings, ?_, ?_, ?_⟩
    · rw [loadSettings] at hsettings
      cases hread : readSettings file with
      | error e =>
        rw [hread] at hsettings
        cases hsettings
      | ok read =>
        rw [hread] at hsettings
        exact settingsOf_valid hdefaults read.2 hsettings
    · intro hpresent data hcontent path hinvalid
      obtain ⟨changed, hother, hpart⟩ := hinvalid.partLoses (file.distinct data hcontent) file.path
      rw [loadSettings_dict file hpresent hcontent] at hsettings
      have hwithout : (file.without path).content = .ok (.dict (eraseAt path data)) := by
        simp only [SettingsFile.without, hcontent]
        rfl
      rw [loadSettings_dict (file.without path) hpresent hwithout]
      exact settingsOf_loses hother hpart hsettings
    · intro hpresent hunusable
      obtain ⟨warning, hfile⟩ := loadSettings_unusable hpresent hloads hunusable
      obtain ⟨defaults, hdefault, hwarnings, hempty⟩ :=
        settingsOf_nil python file.path [warning]
      rw [hfile, hdefault] at hsettings
      cases hsettings
      have habsent : readSettings { file with present := .ok false } = .ok ([], []) := rfl
      refine ⟨warning, _, (loadSettings_of_read habsent).trans hempty, rfl, ?_⟩
      rw [← hwarnings]

end Loading

/-- An integer from here on is too large for a float: `2 ** 1024`. -/
def floatBound : ℕ := ((2 ^ 256) ^ 2) ^ 2

def plainSettings : SettingsPython FloatRepr Empty where
  maxDigits := 4300
  digitsMessage := text "Exceeds the limit (4300 digits) for integer string conversion"
  reprText value := text "'" ++ value ++ text "'"
  strOther := Empty.elim
  reprOther := Empty.elim
  floatOfInt value :=
    if value.natAbs < floatBound then
      .ok (.literal ⟨decide (value < 0), value.natAbs, [0], none, FloatLiteral.whole_proper⟩)
    else .error ⟨.overflowError, text "int too large to convert to float"⟩
  isPrintable c := 32 ≤ c.val ∧ c.val < 127
  namedKeys key := [text "enter", text "escape", text "tab"].contains key
  keyToCharacter _ := .ok none

def shortInterval : SettingsFile FloatRepr Empty where
  path := text "settings.yaml"
  present := .ok true
  content := .ok (.dict
    [(.str (text "keymap"), .dict [(.str (text "app.quit"), .str (text "ctrl+q,escape"))]),
      (.str (text "admin"), .dict [(.str adminRefreshIntervalSetting, .int 3),
        (.str timeoutsSetting, .dict [(.str (text "read"), .int 20)])])])
  distinct := by
    rintro data ⟨⟩
    simp only [DistinctKeys, List.forall_mem_cons, List.not_mem_nil, false_implies, implies_true,
      reduceCtorEq, YamlValue.dict.injEq, forall_eq', and_true]
    decide

theorem loadSettings_iff_shortInterval : shortInterval.Meets plainSettings := by
  have hdefaults : ∀ property : TimeoutProperty,
      isTimeout (PyFloat.ofRepr (.literal property.default) : FloatRepr) := by
    intro property
    cases property <;> decide +kernel
  refine (loadSettings_iff hdefaults).mpr ⟨⟨true, rfl⟩, fun _ => ⟨nofun, ?_⟩⟩
  rintro data ⟨⟩
  refine ⟨?_, fun part => ?_⟩
  · rintro entries ⟨⟩ entry hentry
    obtain rfl := List.mem_singleton.mp hentry
    intro _ _ key hkey
    have hkeys : (text "ctrl+q,escape").splitOn (chr ',') = [text "ctrl+q", text "escape"] := by decide
    rw [hkeys] at hkey
    refine isValidKey_returns_iff.mp ⟨true, ?_⟩
    rcases List.mem_pair.mp hkey with rfl | rfl
    · decide
    · decide
  · cases part with
    | admin =>
      rintro entries ⟨⟩
      refine ⟨?_, ?_⟩
      · intro key hkey hunknown
        rcases List.mem_pair.mp hkey with rfl | rfl <;> cases hunknown
      rintro timeouts ⟨⟩ entry hentry
      obtain rfl := List.mem_singleton.mp hentry
      rintro number e ⟨⟩ hraises
      cases hraises
    | consumer => exact nofun
    | producer => exact nofun

def latinSettings : SettingsFile FloatRepr Empty where
  path := text "settings.yaml"
  present := .ok true
  content := .error ⟨.unicodeDecodeError, text "'utf-8' codec can't decode byte 0xe9"⟩
  distinct := nofun

def hugeTimeout : SettingsFile FloatRepr Empty where
  path := text "settings.yaml"
  present := .ok true
  content := .ok (.dict [(.str (text "admin"),
    .dict [(.str timeoutsSetting, .dict [(.str (text "read"), .int floatBound)])])])
  distinct := by
    rintro data ⟨⟩
    simp [DistinctKeys]

theorem not_meets_latin_huge :
    ¬ latinSettings.Meets plainSettings ∧ ¬ hugeTimeout.Meets plainSettings := by
  constructor
  · rintro ⟨settings, hsettings, -⟩
    cases hsettings
  · rintro ⟨settings, hsettings, -⟩
    have hloads := loadSettings_returns_iff.mp ⟨settings, hsettings⟩
    have hread := ((hloads.2 rfl).2 _ rfl).2 .admin _ rfl
    have hraises : plainSettings.floatOfInt floatBound =
        .error ⟨.overflowError, text "int too large to convert to float"⟩ := by
      simp only [plainSettings, Int.natAbs_natCast, lt_irrefl, if_false]
    have hcaught := hread.2 _ rfl _ List.mem_cons_self _ _ rfl hraises
    exact absurd hcaught (by decide)

end Kaskade
