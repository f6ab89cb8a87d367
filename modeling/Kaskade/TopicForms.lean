import Kaskade.BoundedSteps
import Kaskade.Dictionaries
import Kaskade.IntegerTexts
import Mathlib.Logic.Function.Basic

/-!
# Editing a topic

`EditTopicScreen`: the form shows the topic's settings, turns its inputs into an `UpdateTopicCommand`,
and `TopicService.edit` sends the changes, which set values or delete them so that the cluster default
applies again.
-/

namespace Kaskade

open Python

inductive ConfigSource where
  | unknown
  | dynamicTopicConfig
  | dynamicBrokerConfig
  | dynamicDefaultBrokerConfig
  | staticBrokerConfig
  | defaultConfig
  | groupConfig
  deriving DecidableEq

inductive AlterConfigOpType where
  | set
  | delete

/-- An entry that Kafka describes, or that is sent to it. -/
structure ConfigEntry where
  name : Text
  value : Option Text
  source : ConfigSource
  incrementalOperation : Option AlterConfigOpType := none

structure TopicConfiguration where
  name : Text
  value : Option Text
  overridden : Bool := false

def describeConfigs (entries : List ConfigEntry) : List TopicConfiguration :=
  entries.map fun config =>
    { name := config.name
      value := config.value
      overridden := config.source = .dynamicTopicConfig }

inductive CleanupPolicy where
  | delete
  | compact
  deriving DecidableEq

def CleanupPolicy.str : CleanupPolicy → Text
  | .delete => text "delete"
  | .compact => text "compact"

def minInsyncReplicasConfig : Text := text "min.insync.replicas"

def retentionMsConfig : Text := text "retention.ms"

def cleanupPolicyConfig : Text := text "cleanup.policy"

structure ConfigChange where
  name : Text
  current : Text
  value : Option Text

def ConfigChange.reset (change : ConfigChange) : Bool := change.value.isNone

structure UpdateTopicCommand where
  partitions : Option ℤ := none
  configs : List ConfigChange := []

def UpdateTopicCommand.changed (command : UpdateTopicCommand) : Bool :=
  command.partitions.isSome || !command.configs.isEmpty

/-- `TopicService.edit`: the entries of its request. -/
def editEntries (changes : List ConfigChange) : List ConfigEntry :=
  changes.map fun change =>
    { name := change.name
      value := change.value
      source := .dynamicTopicConfig
      incrementalOperation := some (if change.reset then .delete else .set) }

/-- The inputs of the form and the pressed button. -/
structure TopicInputs where
  partitions : Text
  retention : Text
  minInsyncReplicas : Text
  cleanupPolicy : Option CleanupPolicy

/-- What the form takes from Textual: `Integer(minimum=...)`, with how it words a failure; what it
accepts is converted by `int`. -/
structure IntegerValidator {D : Type} (python : Conversions D) where
  failure : ℕ → Text → Option Text
  converts : ∀ minimum value, failure minimum value = none → ∃ number, python.int value = .ok number

/-- `configurations` is a dictionary with the names as keys. -/
structure EditTopicScreen where
  partitionsCount : ℕ
  configurations : List (Text × TopicConfiguration)

namespace EditTopicScreen

def new (partitionsCount : ℕ) (configurations : List TopicConfiguration) : EditTopicScreen where
  partitionsCount := partitionsCount
  configurations := Dictionary.ofEntries
    (configurations.map fun configuration => (configuration.name, configuration))

variable (screen : EditTopicScreen)

/-- `self.configurations.get(name)`. -/
def configuration (name : Text) : Option TopicConfiguration :=
  (screen.configurations.find? (·.1 = name)).map Prod.snd

def currentValue (name : Text) : Text :=
  match screen.configuration name with
  | some configuration => configuration.value.getD []
  | none => []

/-- What `compose` shows. -/
def initialInputs : TopicInputs where
  partitions := natText screen.partitionsCount
  retention := screen.currentValue retentionMsConfig
  minInsyncReplicas := screen.currentValue minInsyncReplicasConfig
  cleanupPolicy :=
    [CleanupPolicy.delete, .compact].find? (·.str = screen.currentValue cleanupPolicyConfig)

section Validation

variable {D : Type} {python : Conversions D}

variable (python) in
def validOptionalPositiveInteger (value : Text) : Outcome Bool :=
  if value = [] then .ok true
  else if isdigit value then (python.int value).map fun number => decide (1 ≤ number)
  else .ok false

variable (python) in
def validOptionalRetention (value : Text) : Outcome Bool :=
  Outcome.tryExcept
    (if value = [] then .ok true else (python.int value).map fun number => decide (-1 ≤ number))
    [.valueError] fun _ => .ok false

/-- `validated_inputs`: the failures that are reported. -/
def failures (integer : IntegerValidator python) (inputs : TopicInputs) : Outcome (List Text) := do
  let minInsyncReplicas ← validOptionalPositiveInteger python inputs.minInsyncReplicas
  let retention ← validOptionalRetention python inputs.retention
  return ((integer.failure screen.partitionsCount inputs.partitions).map
      (text "Partitions: " ++ ·)).toList
    ++ (if minInsyncReplicas then [] else
      [text "Min In-Sync Replicas: Enter a positive integer or leave empty to use the cluster default"])
    ++ (if retention then [] else
      [text "Retention: Enter -1, 0, or a positive integer, or leave empty to use the cluster default"])

end Validation

section Command

variable {D : Type} (python : Conversions D)

def normalizedInt (value : Text) : Outcome (Option Text) :=
  if value = [] then .ok none
  else do
    let number ← python.int value
    return some (← python.str number)

def configChange (name : Text) (value : Option Text) : Option ConfigChange :=
  let current := screen.currentValue name
  match value with
  | none =>
    match screen.configuration name with
    | some configuration => if configuration.overridden then some ⟨name, current, none⟩ else none
    | none => none
  | some value => if value = current then none else some ⟨name, current, some value⟩

def updateCommand (inputs : TopicInputs) : Outcome UpdateTopicCommand := do
  let partitions ← python.int inputs.partitions
  let minInsyncReplicas ← normalizedInt python inputs.minInsyncReplicas
  let cleanupPolicy := match inputs.cleanupPolicy with
    | some policy => policy.str
    | none => screen.currentValue cleanupPolicyConfig
  let retention ← normalizedInt python inputs.retention
  let values := [(minInsyncReplicasConfig, minInsyncReplicas),
    (cleanupPolicyConfig, some cleanupPolicy), (retentionMsConfig, retention)]
  return {
    partitions := if screen.partitionsCount < partitions then some partitions else none
    configs := values.filterMap fun item => screen.configChange item.1 item.2 }

end Command

end EditTopicScreen

/-- What the cluster holds for a topic: the values set for it and those that it inherits. -/
structure TopicSettings where
  overrides : Text → Option Text
  defaults : Text → Option Text

namespace TopicSettings

def effective (settings : TopicSettings) (name : Text) : Option Text :=
  (settings.overrides name).or (settings.defaults name)

/-- What one entry of `incremental_alter_configs` does. -/
def alter (settings : TopicSettings) (entry : ConfigEntry) : TopicSettings :=
  match entry.incrementalOperation with
  | some .set => { settings with overrides := Function.update settings.overrides entry.name entry.value }
  | some .delete => { settings with overrides := Function.update settings.overrides entry.name none }
  | none => settings

/-- The cluster describes the values in effect, and which of them are set for the topic. -/
structure Describes (settings : TopicSettings) (entries : List ConfigEntry) : Prop where
  value : ∀ entry ∈ entries, entry.value = settings.effective entry.name
  source : ∀ entry ∈ entries,
    entry.source = .dynamicTopicConfig ↔ (settings.overrides entry.name).isSome
  complete : ∀ name, (settings.effective name).isSome → ∃ entry ∈ entries, entry.name = name

/-- The integer settings are written as `str` writes integers, where there is a value. -/
def Canonical (settings : TopicSettings) : Prop :=
  ∀ name ∈ [retentionMsConfig, minInsyncReplicasConfig], ∀ value,
    settings.effective name = some value → ∃ number, value = intText number

variable {settings : TopicSettings} {entries : List ConfigEntry} {name : Text}

theorem configuration_eq_some {count : ℕ} {configuration : TopicConfiguration}
    (h : (EditTopicScreen.new count (describeConfigs entries)).configuration name =
      some configuration) :
    ∃ entry ∈ entries, entry.name = name ∧ configuration.value = entry.value ∧
      configuration.overridden = decide (entry.source = .dynamicTopicConfig) := by
  obtain ⟨item, hfind, rfl⟩ := Option.map_eq_some_iff.mp h
  have hname : item.1 = name := by simpa using List.find?_some hfind
  have hitem := Dictionary.mem_ofEntries (List.mem_of_find?_eq_some hfind)
  obtain ⟨described, hdescribed, rfl⟩ := List.mem_map.mp hitem
  obtain ⟨entry, hentry, rfl⟩ := List.mem_map.mp hdescribed
  exact ⟨entry, hentry, hname, rfl, rfl⟩

theorem configuration_eq_none {count : ℕ}
    (h : (EditTopicScreen.new count (describeConfigs entries)).configuration name = none) :
    ∀ entry ∈ entries, entry.name ≠ name := by
  rintro entry hentry rfl
  have hkey : entry.name ∈ ((describeConfigs entries).map fun configuration =>
      (configuration.name, configuration)).map Prod.fst := by
    rw [List.map_map, describeConfigs, List.map_map]
    exact List.mem_map.mpr ⟨entry, hentry, rfl⟩
  obtain ⟨item, hitem, hname⟩ := List.mem_map.mp (Dictionary.exists_mem_ofEntries hkey)
  have hnone := List.find?_eq_none.mp (Option.map_eq_none_iff.mp h) item hitem
  exact hnone (by simpa using hname)

theorem Describes.currentValue (h : Describes settings entries) (count : ℕ) (name : Text) :
    (EditTopicScreen.new count (describeConfigs entries)).currentValue name =
      (settings.effective name).getD [] := by
  rw [EditTopicScreen.currentValue]
  cases hconfiguration :
      (EditTopicScreen.new count (describeConfigs entries)).configuration name with
  | none =>
    have hnone := configuration_eq_none hconfiguration
    cases heffective : settings.effective name with
    | none => rfl
    | some value =>
      obtain ⟨entry, hentry, hname⟩ := h.complete name (by rw [heffective]; rfl)
      exact absurd hname (hnone entry hentry)
  | some configuration =>
    obtain ⟨entry, hentry, rfl, hvalue, -⟩ := configuration_eq_some hconfiguration
    simp only [hvalue, h.value entry hentry]

theorem overrides_eq_none_of_effective (h : settings.effective name = none) :
    settings.overrides name = none :=
  (Option.or_eq_none_iff.mp h).1

/-- An emptied input resets the setting exactly where the topic has set it. -/
theorem Describes.configChange_none (h : Describes settings entries) (count : ℕ) (name : Text) :
    (EditTopicScreen.new count (describeConfigs entries)).configChange name none =
      if (settings.overrides name).isSome then
        some ⟨name, (settings.effective name).getD [], none⟩
      else none := by
  rw [EditTopicScreen.configChange, h.currentValue]
  cases hconfiguration :
      (EditTopicScreen.new count (describeConfigs entries)).configuration name with
  | none =>
    have hnone := configuration_eq_none hconfiguration
    have hoverrides : settings.overrides name = none := by
      apply overrides_eq_none_of_effective
      by_contra heffective
      obtain ⟨entry, hentry, hname⟩ := h.complete name (Option.isSome_iff_ne_none.mpr heffective)
      exact hnone entry hentry hname
    simp [hoverrides]
  | some configuration =>
    obtain ⟨entry, hentry, rfl, -, hoverridden⟩ := configuration_eq_some hconfiguration
    simp only [hoverridden, decide_eq_true_eq, h.source entry hentry]

theorem Describes.configChange_some (h : Describes settings entries) (count : ℕ) (name value : Text) :
    (EditTopicScreen.new count (describeConfigs entries)).configChange name (some value) =
      if value = (settings.effective name).getD [] then none
      else some ⟨name, (settings.effective name).getD [], some value⟩ := by
  rw [EditTopicScreen.configChange, h.currentValue]

/-- A change leaves its value as what is set for the topic, or nothing. -/
theorem alter_change (settings : TopicSettings) (change : ConfigChange) :
    (editEntries [change]).foldl alter settings =
      { settings with
        overrides := Function.update settings.overrides change.name change.value } := by
  obtain ⟨name, current, value⟩ := change
  cases value <;> rfl

theorem overrides_alter_of_notMem {changes : List ConfigChange}
    (h : name ∉ changes.map ConfigChange.name) (settings : TopicSettings) :
    ((editEntries changes).foldl alter settings).overrides name = settings.overrides name := by
  induction changes generalizing settings with
  | nil => rfl
  | cons change changes ih =>
    rw [List.map_cons, List.mem_cons, not_or] at h
    have hfirst := alter_change settings change
    rw [editEntries, List.map_cons, List.foldl_cons, ← editEntries, ih h.2]
    rw [editEntries, List.map_singleton, List.foldl_cons, List.foldl_nil] at hfirst
    rw [hfirst]
    exact Function.update_of_ne h.1 _ _

theorem defaults_alter (entries : List ConfigEntry) (settings : TopicSettings) :
    (entries.foldl alter settings).defaults = settings.defaults := by
  induction entries generalizing settings with
  | nil => rfl
  | cons entry entries ih =>
    rw [List.foldl_cons, ih, alter]
    cases entry.incrementalOperation with
    | none => rfl
    | some operation => cases operation <;> rfl

theorem overrides_alter_of_mem {changes : List ConfigChange}
    (hdistinct : (changes.map ConfigChange.name).Nodup) {change : ConfigChange}
    (h : change ∈ changes) (settings : TopicSettings) :
    ((editEntries changes).foldl alter settings).overrides change.name = change.value := by
  induction changes generalizing settings with
  | nil => cases h
  | cons first changes ih =>
    rw [List.map_cons, List.nodup_cons] at hdistinct
    have hfirst := alter_change settings first
    rw [editEntries, List.map_singleton, List.foldl_cons, List.foldl_nil] at hfirst
    rw [editEntries, List.map_cons, List.foldl_cons, ← editEntries, hfirst]
    rcases List.mem_cons.mp h with rfl | h
    · rw [overrides_alter_of_notMem hdistinct.1]
      exact Function.update_self _ _ _
    · exact ih hdistinct.2 h _

def edited (settings : TopicSettings) (changes : List ConfigChange) : TopicSettings :=
  (editEntries changes).foldl alter settings

theorem configChange_name {screen : EditTopicScreen} {value : Option Text} {change : ConfigChange}
    (h : screen.configChange name value = some change) : change.name = name := by
  cases value with
  | none =>
    simp only [EditTopicScreen.configChange] at h
    split at h
    · split_ifs at h
      cases h
      rfl
    · cases h
  | some value =>
    simp only [EditTopicScreen.configChange] at h
    split_ifs at h
    cases h
    rfl

theorem overrides_edited {screen : EditTopicScreen} {values : List (Text × Option Text)}
    (hdistinct : (values.map Prod.fst).Nodup) {value : Option Text} (h : (name, value) ∈ values) :
    (settings.edited (values.filterMap fun item => screen.configChange item.1 item.2)).overrides
        name =
      match screen.configChange name value with
      | some change => change.value
      | none => settings.overrides name := by
  have hnames : ((values.filterMap fun item => screen.configChange item.1 item.2).map
      ConfigChange.name).Sublist (values.map Prod.fst) := by
    rw [List.map_filterMap]
    refine Dictionary.filterMap_sublist_map fun item _ changed hchanged => ?_
    obtain ⟨change, hchange, rfl⟩ := Option.map_eq_some_iff.mp hchanged
    exact configChange_name hchange
  cases hchange : screen.configChange name value with
  | none =>
    refine overrides_alter_of_notMem (fun hmem => ?_) settings
    obtain ⟨change, hchanged, hname⟩ := List.mem_map.mp hmem
    obtain ⟨other, hother, hsome⟩ := List.mem_filterMap.mp hchanged
    have hsame := List.inj_on_of_nodup_map hdistinct hother h
      ((configChange_name hsome).symm.trans hname)
    rw [hsame, hchange] at hsome
    cases hsome
  | some change =>
    have hmem : change ∈ values.filterMap fun item => screen.configChange item.1 item.2 :=
      List.mem_filterMap.mpr ⟨_, h, hchange⟩
    obtain rfl := configChange_name hchange
    exact overrides_alter_of_mem (hdistinct.sublist hnames) hmem settings

theorem effective_edited (changes : List ConfigChange) (name : Text) :
    (settings.edited changes).effective name =
      ((settings.edited changes).overrides name).or (settings.defaults name) := by
  rw [effective, edited, defaults_alter]

section Applied

variable {count : ℕ} {values : List (Text × Option Text)}

/-- An emptied input leaves what the topic inherits. -/
theorem Describes.effective_none (h : Describes settings entries)
    (hdistinct : (values.map Prod.fst).Nodup) (hmem : (name, none) ∈ values) :
    (settings.edited (values.filterMap fun item =>
      (EditTopicScreen.new count (describeConfigs entries)).configChange item.1 item.2)).effective
        name = settings.defaults name := by
  rw [effective_edited, overrides_edited hdistinct hmem, h.configChange_none]
  cases hoverrides : settings.overrides name with
  | none => rfl
  | some value => rfl

/-- A value is in effect afterwards, whether it was in effect before or not. -/
theorem Describes.effective_some (h : Describes settings entries)
    (hdistinct : (values.map Prod.fst).Nodup) {value : Text} (hmem : (name, some value) ∈ values) :
    (settings.edited (values.filterMap fun item =>
      (EditTopicScreen.new count (describeConfigs entries)).configChange item.1 item.2)).effective
        name =
      if value = (settings.effective name).getD [] then settings.effective name else some value := by
  rw [effective_edited, overrides_edited hdistinct hmem, h.configChange_some]
  split_ifs with hcurrent <;> rfl

theorem Describes.effective_of_ne_nil (h : Describes settings entries)
    (hdistinct : (values.map Prod.fst).Nodup) {value : Text} (hmem : (name, some value) ∈ values)
    (hne : value ≠ []) :
    (settings.edited (values.filterMap fun item =>
      (EditTopicScreen.new count (describeConfigs entries)).configChange item.1 item.2)).effective
        name = some value := by
  rw [h.effective_some hdistinct hmem]
  split_ifs with hcurrent
  · cases heffective : settings.effective name with
    | none =>
      rw [heffective] at hcurrent
      exact absurd hcurrent hne
    | some current =>
      rw [heffective] at hcurrent
      rw [hcurrent]
      rfl
  · rfl

end Applied

end TopicSettings

section Validated

variable {D : Type} {python : Conversions D} {value : Text} {number : ℤ}

namespace EditTopicScreen

variable {screen : EditTopicScreen} {inputs : TopicInputs}

theorem int_of_validOptionalPositiveInteger
    (h : validOptionalPositiveInteger python value = .ok true) (hne : value ≠ []) :
    ∃ number, python.int value = .ok number := by
  rw [validOptionalPositiveInteger, if_neg hne] at h
  cases hread : python.int value with
  | error e =>
    rw [hread] at h
    split_ifs at h
    all_goals cases h
  | ok number => exact ⟨number, rfl⟩

theorem int_of_validOptionalRetention
    (h : validOptionalRetention python value = .ok true) (hne : value ≠ []) :
    ∃ number, python.int value = .ok number := by
  rw [validOptionalRetention, if_neg hne] at h
  cases hread : python.int value with
  | error e =>
    rw [hread] at h
    simp only [Except.map, Outcome.tryExcept] at h
    split_ifs at h
    cases h
  | ok number => exact ⟨number, rfl⟩

theorem int_of_failures {integer : IntegerValidator python}
    (h : screen.failures integer inputs = .ok []) :
    (∃ partitions, python.int inputs.partitions = .ok partitions) ∧
    (inputs.minInsyncReplicas ≠ [] → ∃ number, python.int inputs.minInsyncReplicas = .ok number) ∧
    (inputs.retention ≠ [] → ∃ number, python.int inputs.retention = .ok number) := by
  obtain ⟨minInsyncReplicas, hreplicas, h⟩ := bind_eq_ok.mp h
  obtain ⟨retention, hretention, h⟩ := bind_eq_ok.mp h
  have hnone := Except.ok.inj h
  rw [List.append_eq_nil_iff, List.append_eq_nil_iff] at hnone
  obtain ⟨⟨hpartitions, hvalidReplicas⟩, hvalidRetention⟩ := hnone
  refine ⟨integer.converts screen.partitionsCount _ ?_, ?_, ?_⟩
  · cases hfailure : integer.failure screen.partitionsCount inputs.partitions with
    | none => rfl
    | some failure =>
      rw [hfailure] at hpartitions
      cases hpartitions
  · cases minInsyncReplicas with
    | false => cases hvalidReplicas
    | true => exact int_of_validOptionalPositiveInteger hreplicas
  · cases retention with
    | false => cases hvalidRetention
    | true => exact int_of_validOptionalRetention hretention

theorem normalizedInt_nil : normalizedInt python [] = .ok none := rfl

theorem normalizedInt_of_int (hne : value ≠ []) (h : python.int value = .ok number) :
    normalizedInt python value = .ok (some (intText number)) := by
  rw [normalizedInt, if_neg hne, h]
  simp only [bind, Except.bind, str_of_int h]
  rfl

theorem normalizedInt_returns (h : value ≠ [] → ∃ number, python.int value = .ok number) :
    ∃ normalized, normalizedInt python value = .ok normalized := by
  by_cases hne : value = []
  · subst hne
    exact ⟨none, normalizedInt_nil⟩
  · obtain ⟨number, hnumber⟩ := h hne
    exact ⟨_, normalizedInt_of_int hne hnumber⟩

/-- The values of `update_command`. -/
def values (screen : EditTopicScreen) (inputs : TopicInputs)
    (minInsyncReplicas retention : Option Text) : List (Text × Option Text) :=
  [(minInsyncReplicasConfig, minInsyncReplicas),
    (cleanupPolicyConfig, some (match inputs.cleanupPolicy with
      | some policy => policy.str
      | none => screen.currentValue cleanupPolicyConfig)),
    (retentionMsConfig, retention)]

/-- The policy that is shown as pressed is the current one, and one that no button shows stays. -/
theorem configChange_initialPolicy (screen : EditTopicScreen) :
    screen.configChange cleanupPolicyConfig (some (match screen.initialInputs.cleanupPolicy with
      | some policy => policy.str
      | none => screen.currentValue cleanupPolicyConfig)) = none := by
  have hcurrent : (match screen.initialInputs.cleanupPolicy with
      | some policy => policy.str
      | none => screen.currentValue cleanupPolicyConfig) = screen.currentValue cleanupPolicyConfig := by
    cases hpressed : screen.initialInputs.cleanupPolicy with
    | none => rfl
    | some policy => simpa using List.find?_some hpressed
  rw [hcurrent, configChange, if_pos rfl]

theorem values_nodup (screen : EditTopicScreen) (inputs : TopicInputs)
    (minInsyncReplicas retention : Option Text) :
    ((screen.values inputs minInsyncReplicas retention).map Prod.fst).Nodup := by
  rw [values]
  simp only [List.map_cons, List.map_nil]
  decide

theorem updateCommand_eq (screen : EditTopicScreen) {partitions : ℤ} {minInsyncReplicas retention : Option Text}
    (hpartitions : python.int inputs.partitions = .ok partitions)
    (hreplicas : normalizedInt python inputs.minInsyncReplicas = .ok minInsyncReplicas)
    (hretention : normalizedInt python inputs.retention = .ok retention) :
    screen.updateCommand python inputs = .ok {
      partitions := if screen.partitionsCount < partitions then some partitions else none
      configs := (screen.values inputs minInsyncReplicas retention).filterMap fun item =>
        screen.configChange item.1 item.2 } := by
  rw [updateCommand, hpartitions, hreplicas, hretention]
  rfl

end EditTopicScreen

end Validated

/-- A setting takes the value of its input, or what the topic inherits where the input is empty. -/
structure TopicSettings.TakesInput {D : Type} (python : Conversions D) (before after : TopicSettings)
    (name input : Text) : Prop where
  emptied : input = [] → after.effective name = before.defaults name
  filled : input ≠ [] → ∃ number, python.int input = .ok number ∧
    after.effective name = some (intText number)

structure EditTopicScreen.Edits {D : Type} (python : Conversions D) (screen : EditTopicScreen)
    (inputs : TopicInputs) (before after : TopicSettings) (command : UpdateTopicCommand) : Prop where
  current : ∀ change ∈ command.configs,
    change.current = (before.effective change.name).getD [] ∧ change.value ≠ some change.current
  resets : ∀ change ∈ command.configs, change.reset → (before.overrides change.name).isSome
  unedited : inputs = screen.initialInputs → command.changed = false
  retention : before.TakesInput python after retentionMsConfig inputs.retention
  minInsyncReplicas : before.TakesInput python after minInsyncReplicasConfig inputs.minInsyncReplicas
  cleanupPolicy : after.effective cleanupPolicyConfig =
    (inputs.cleanupPolicy.map CleanupPolicy.str).or (before.effective cleanupPolicyConfig)
  others : ∀ name ∉ [minInsyncReplicasConfig, cleanupPolicyConfig, retentionMsConfig],
    after.effective name = before.effective name
  partitions : ∀ count, command.partitions = some count ↔
    python.int inputs.partitions = .ok count ∧ screen.partitionsCount < count

namespace TopicSettings

variable {D : Type} {python : Conversions D} {settings : TopicSettings} {entries : List ConfigEntry}
  {name input : Text} {count : ℕ} {values : List (Text × Option Text)} {normalized : Option Text}

theorem Describes.takesInput (h : Describes settings entries)
    (hdistinct : (values.map Prod.fst).Nodup)
    (hint : input ≠ [] → ∃ number, python.int input = .ok number)
    (hnormalized : EditTopicScreen.normalizedInt python input = .ok normalized)
    (hmem : (name, normalized) ∈ values) :
    settings.TakesInput python (settings.edited (values.filterMap fun item =>
      (EditTopicScreen.new count (describeConfigs entries)).configChange item.1 item.2))
      name input where
  emptied := by
    rintro rfl
    rw [EditTopicScreen.normalizedInt_nil] at hnormalized
    obtain rfl := Except.ok.inj hnormalized
    exact h.effective_none hdistinct hmem
  filled := by
    intro hne
    obtain ⟨number, hnumber⟩ := hint hne
    rw [EditTopicScreen.normalizedInt_of_int hne hnumber] at hnormalized
    obtain rfl := Except.ok.inj hnormalized
    exact ⟨number, hnumber, h.effective_of_ne_nil hdistinct hmem (intText_ne_nil number)⟩

/-- An input that was not edited changes nothing: its integer is printed as the cluster holds it. -/
theorem Describes.configChange_unedited (h : Describes settings entries)
    (hcanonical : settings.Canonical) (hname : name ∈ [retentionMsConfig, minInsyncReplicasConfig])
    (hint : (settings.effective name).getD [] ≠ [] →
      ∃ number, python.int ((settings.effective name).getD []) = .ok number)
    (hnormalized : EditTopicScreen.normalizedInt python ((settings.effective name).getD []) =
      .ok normalized) :
    (EditTopicScreen.new count (describeConfigs entries)).configChange name normalized = none := by
  cases heffective : settings.effective name with
  | none =>
    rw [heffective, Option.getD_none, EditTopicScreen.normalizedInt_nil] at hnormalized
    obtain rfl := Except.ok.inj hnormalized
    rw [h.configChange_none, overrides_eq_none_of_effective heffective]
    rfl
  | some value =>
    obtain ⟨printed, rfl⟩ := hcanonical name hname value heffective
    rw [heffective, Option.getD_some] at hint hnormalized
    obtain ⟨number, hnumber⟩ := hint (intText_ne_nil printed)
    rw [EditTopicScreen.normalizedInt_of_int (intText_ne_nil printed) hnumber] at hnormalized
    obtain rfl := Except.ok.inj hnormalized
    rw [h.configChange_some, heffective, int_intText hnumber, Option.getD_some, if_pos rfl]

/-- A change of the command is about a value that differs from the one in effect, and resets only what the
topic has set. -/
theorem Describes.of_configChange (h : Describes settings entries) {value : Option Text}
    {change : ConfigChange}
    (hchange : (EditTopicScreen.new count (describeConfigs entries)).configChange name value =
      some change) :
    (change.current = (settings.effective change.name).getD [] ∧ change.value ≠ some change.current) ∧
      (change.reset → (settings.overrides change.name).isSome) := by
  cases value with
  | none =>
    rw [h.configChange_none] at hchange
    split_ifs at hchange with hoverridden
    obtain rfl := Option.some.inj hchange
    exact ⟨⟨rfl, nofun⟩, fun _ => hoverridden⟩
  | some value =>
    rw [h.configChange_some] at hchange
    split_ifs at hchange with hsame
    obtain rfl := Option.some.inj hchange
    exact ⟨⟨rfl, fun heq => hsame (Option.some.inj heq)⟩, nofun⟩

theorem effective_edited_of_notMem {screen : EditTopicScreen} (h : name ∉ values.map Prod.fst) :
    (settings.edited (values.filterMap fun item => screen.configChange item.1 item.2)).effective
      name = settings.effective name := by
  rw [effective_edited, edited, overrides_alter_of_notMem, effective]
  intro hmem
  obtain ⟨change, hchanged, hname⟩ := List.mem_map.mp hmem
  obtain ⟨item, hitem, hchange⟩ := List.mem_filterMap.mp hchanged
  rw [← hname, configChange_name hchange] at h
  exact h (List.mem_map_of_mem hitem)

/-- A form that was not edited asks for no change. -/
theorem Describes.changed_unedited (h : Describes settings entries) (hcanonical : settings.Canonical)
    {screen : EditTopicScreen} (hscreen : screen = EditTopicScreen.new count (describeConfigs entries))
    {integer : IntegerValidator python}
    (hvalid : screen.failures integer screen.initialInputs = .ok []) {command : UpdateTopicCommand}
    (hcommand : screen.updateCommand python screen.initialInputs = .ok command) :
    command.changed = false := by
  obtain ⟨⟨partitions, hpartitions⟩, hreplicas, hretention⟩ := EditTopicScreen.int_of_failures hvalid
  obtain ⟨minInsyncReplicas, hminInsync⟩ := EditTopicScreen.normalizedInt_returns hreplicas
  obtain ⟨retention, hretentionMs⟩ := EditTopicScreen.normalizedInt_returns hretention
  rw [screen.updateCommand_eq hpartitions hminInsync hretentionMs] at hcommand
  obtain rfl := Except.ok.inj hcommand
  have hshown : screen.initialInputs.partitions = intText screen.partitionsCount := rfl
  rw [hshown] at hpartitions
  have hcount := int_intText hpartitions
  have hvalues : ∀ item ∈ screen.values screen.initialInputs minInsyncReplicas retention,
      screen.configChange item.1 item.2 = none := by
    have hcurrent := h.currentValue count
    rw [← hscreen] at hcurrent
    simp only [EditTopicScreen.values, List.forall_mem_cons]
    refine ⟨?_, screen.configChange_initialPolicy, ?_, List.forall_mem_nil _⟩
    · simp only [EditTopicScreen.initialInputs, hcurrent] at hreplicas hminInsync
      rw [hscreen]
      exact h.configChange_unedited hcanonical (by simp) hreplicas hminInsync
    · simp only [EditTopicScreen.initialInputs, hcurrent] at hretention hretentionMs
      rw [hscreen]
      exact h.configChange_unedited hcanonical (by simp) hretention hretentionMs
  have hconfigs := List.filterMap_eq_nil_iff.mpr hvalues
  rw [UpdateTopicCommand.changed, hconfigs, if_neg (by omega)]
  rfl

/-- The radio buttons cannot be released: the policy is the pressed one, or stays. -/
theorem Describes.cleanupPolicy_edited (h : Describes settings entries)
    (hdistinct : (values.map Prod.fst).Nodup) (pressed : Option CleanupPolicy)
    (hmem : (cleanupPolicyConfig, some (match pressed with
      | some policy => policy.str
      | none => (EditTopicScreen.new count (describeConfigs entries)).currentValue
          cleanupPolicyConfig)) ∈ values) :
    (settings.edited (values.filterMap fun item =>
      (EditTopicScreen.new count (describeConfigs entries)).configChange item.1 item.2)).effective
        cleanupPolicyConfig =
      (pressed.map CleanupPolicy.str).or (settings.effective cleanupPolicyConfig) := by
  cases pressed with
  | none =>
    rw [h.currentValue] at hmem
    rw [h.effective_some hdistinct hmem, if_pos rfl]
    rfl
  | some policy =>
    apply h.effective_of_ne_nil hdistinct hmem
    cases policy <;> exact List.cons_ne_nil _ _

/-- From every configuration that the cluster describes with canonical integers and every validated state
of the form, the command changes what differs from the form and applies what the form shows. -/
theorem Describes.updateCommand_edits (h : Describes settings entries)
    (hcanonical : settings.Canonical) {integer : IntegerValidator python} {inputs : TopicInputs}
    (hvalid : (EditTopicScreen.new count (describeConfigs entries)).failures integer inputs = .ok []) :
    ∃ command,
      (EditTopicScreen.new count (describeConfigs entries)).updateCommand python inputs = .ok command ∧
      (EditTopicScreen.new count (describeConfigs entries)).Edits python inputs settings
        (settings.edited command.configs) command := by
  obtain ⟨⟨partitions, hpartitions⟩, hreplicas, hretention⟩ :=
    EditTopicScreen.int_of_failures hvalid
  obtain ⟨minInsyncReplicas, hminInsync⟩ := EditTopicScreen.normalizedInt_returns hreplicas
  obtain ⟨retention, hretentionMs⟩ := EditTopicScreen.normalizedInt_returns hretention
  have hcommand := (EditTopicScreen.new count (describeConfigs entries)).updateCommand_eq
    hpartitions hminInsync hretentionMs
  have hdistinct := (EditTopicScreen.new count (describeConfigs entries)).values_nodup inputs
    minInsyncReplicas retention
  refine ⟨_, hcommand, ?_⟩
  constructor
  case current =>
    intro change hchange
    obtain ⟨item, -, hsome⟩ := List.mem_filterMap.mp hchange
    exact (h.of_configChange hsome).1
  case resets =>
    intro change hchange
    obtain ⟨item, -, hsome⟩ := List.mem_filterMap.mp hchange
    exact (h.of_configChange hsome).2
  case unedited =>
    rintro rfl
    exact h.changed_unedited hcanonical rfl hvalid hcommand
  case retention =>
    exact h.takesInput hdistinct hretention hretentionMs (by simp [EditTopicScreen.values])
  case minInsyncReplicas =>
    exact h.takesInput hdistinct hreplicas hminInsync (by simp [EditTopicScreen.values])
  case cleanupPolicy =>
    exact h.cleanupPolicy_edited hdistinct inputs.cleanupPolicy
      (List.mem_cons_of_mem _ List.mem_cons_self)
  case others =>
    intro name hname
    exact effective_edited_of_notMem hname
  case partitions =>
    intro count
    rw [hpartitions]
    split_ifs with hincreased
    · exact ⟨fun h => ⟨by rw [Option.some.inj h], Option.some.inj h ▸ hincreased⟩,
        fun h => by rw [Except.ok.inj h.1]⟩
    · refine ⟨nofun, fun h => absurd ?_ hincreased⟩
      rw [Except.ok.inj h.1]
      exact h.2

def inheriting : TopicSettings where
  overrides name := if name = retentionMsConfig then some (text "86400000") else none
  defaults name :=
    if name = cleanupPolicyConfig then some (text "compact,delete")
    else if name = minInsyncReplicasConfig then some (text "1")
    else none

def inheritingEntries : List ConfigEntry :=
  [⟨cleanupPolicyConfig, some (text "compact,delete"), .defaultConfig, none⟩,
    ⟨retentionMsConfig, some (text "86400000"), .dynamicTopicConfig, none⟩,
    ⟨minInsyncReplicasConfig, some (text "1"), .staticBrokerConfig, none⟩]

theorem inheriting_describes : Describes inheriting inheritingEntries where
  value := by decide
  source := by decide
  complete := by
    intro name hname
    by_cases hpolicy : name = cleanupPolicyConfig
    · exact ⟨_, List.mem_cons_self, hpolicy.symm⟩
    by_cases hretention : name = retentionMsConfig
    · exact ⟨_, List.mem_cons_of_mem _ List.mem_cons_self, hretention.symm⟩
    by_cases hreplicas : name = minInsyncReplicasConfig
    · exact ⟨_, List.mem_cons_of_mem _ (List.mem_cons_of_mem _ List.mem_cons_self), hreplicas.symm⟩
    · simp only [effective, inheriting, if_neg hretention, if_neg hpolicy, if_neg hreplicas] at hname
      cases hname

theorem inheriting_canonical : Canonical inheriting := by
  have hretention : inheriting.effective retentionMsConfig = some (intText 86400000) := by decide
  have hreplicas : inheriting.effective minInsyncReplicasConfig = some (intText 1) := by decide
  rw [Canonical, List.forall_mem_cons, List.forall_mem_singleton]
  constructor
  · intro value hvalue
    exact ⟨_, Option.some.inj (hvalue.symm.trans hretention)⟩
  · intro value hvalue
    exact ⟨_, Option.some.inj (hvalue.symm.trans hreplicas)⟩

/-- A validator that refuses what `int` does not read and what is less than the minimum. -/
def atLeast {D : Type} (python : Conversions D) : IntegerValidator python where
  failure minimum value :=
    match python.int value with
    | .ok number => if minimum ≤ number then none else some (text "Must be greater than or equal to "
        ++ natText minimum)
    | .error _ => some (text "Must be a valid integer")
  converts minimum value h := by
    cases hread : python.int value with
    | ok number => exact ⟨number, rfl⟩
    | error e =>
      rw [hread] at h
      cases h

theorem Describes.updateCommand_edits_emptied :
    ∃ command,
      (EditTopicScreen.new 3 (describeConfigs inheritingEntries)).updateCommand oneTime
        ⟨text "6", [], text "02", none⟩ = .ok command ∧
      (EditTopicScreen.new 3 (describeConfigs inheritingEntries)).Edits oneTime
        ⟨text "6", [], text "02", none⟩ inheriting (inheriting.edited command.configs) command := by
  have hvalid : (EditTopicScreen.new 3 (describeConfigs inheritingEntries)).failures
      (atLeast oneTime) ⟨text "6", [], text "02", none⟩ = .ok [] := by decide
  exact inheriting_describes.updateCommand_edits inheriting_canonical hvalid

end TopicSettings

end Kaskade
