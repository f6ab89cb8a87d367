import Kaskade.TopicForms

/-!
# Creating topics

`CreateTopicScreen`: the inputs it refuses, the command it makes of the others, and the topic that
`TopicService.create` requests for it.
-/

namespace Kaskade

open Python

structure CreateTopicCommand where
  name : Text
  partitions : ℤ
  replicas : Option ℤ
  minInsyncReplicas : Option ℤ
  cleanupPolicy : Text
  retentionMs : ℤ

structure NewTopic where
  topic : Text
  numPartitions : ℤ
  replicationFactor : ℤ
  config : List (Text × Text)

/-- The inputs of the form and the pressed button. -/
structure CreateInputs where
  name : Text
  partitions : Text
  retention : Text
  replicas : Text
  minInsyncReplicas : Text
  cleanupPolicy : Option CleanupPolicy

/-- What both forms take from Textual. The retention of a new topic has `Integer(minimum=-1)`. -/
structure TopicValidators {D : Type} (python : Conversions D) extends IntegerValidator python where
  atLeast : ∀ minimum value number, failure minimum value = none → python.int value = .ok number →
    (minimum : ℤ) ≤ number
  retentionFailure : Text → Option Text
  retention : ∀ value, retentionFailure value = none →
    ∃ number, python.int value = .ok number ∧ -1 ≤ number

namespace CreateTopicScreen

/-- `character.isascii() and (character.isalnum() or character in "._-")`. -/
def isNameChr (c : CodePoint) : Bool :=
  (chr '0' ≤ c && c ≤ chr '9') || (chr 'A' ≤ c && c ≤ chr 'Z') || (chr 'a' ≤ c && c ≤ chr 'z') ||
    c == chr '.' || c == chr '_' || c == chr '-'

def validTopicName (name : Text) : Bool :=
  decide (0 < name.length) && decide (name.length ≤ 249) &&
    name != text "." && name != text ".." && name.all isNameChr

section Form

variable {D : Type} {python : Conversions D}

variable (python) in
def optionalInt (value : Text) : Outcome (Option ℤ) :=
  if value = [] then .ok none else (python.int value).map some

def labelled (label : Text) (failure : Option Text) : List Text :=
  (failure.map (label ++ text ": " ++ ·)).toList

def nameFailure : Text :=
  text "Enter a name up to 249 characters using letters, numbers, dots, underscores, or hyphens. "
    ++ text "The name can't be empty or consist only of one or two dots"

def emptyMinInsyncDescription : Text :=
  text "Enter a positive integer or leave empty to use the broker default"

/-- The failures of the single inputs, in the order of `FIELD_LABELS`. -/
def fieldFailures (validators : TopicValidators python) (inputs : CreateInputs) :
    Outcome (List Text) := do
  let replicas ← EditTopicScreen.validOptionalPositiveInteger python inputs.replicas
  let minInsyncReplicas ←
    EditTopicScreen.validOptionalPositiveInteger python inputs.minInsyncReplicas
  return labelled (text "Name") (if validTopicName inputs.name then none else some nameFailure)
    ++ labelled (text "Partitions") (validators.failure 1 inputs.partitions)
    ++ labelled (text "Replication Factor")
      (if replicas then none else some emptyMinInsyncDescription)
    ++ labelled (text "Min In-Sync Replicas")
      (if minInsyncReplicas then none else some emptyMinInsyncDescription)
    ++ labelled (text "Retention") (validators.retentionFailure inputs.retention)

variable (python) in
def crossFieldFailures (inputs : CreateInputs) : Outcome (List Text) := do
  let replicas ← optionalInt python inputs.replicas
  let minInsyncReplicas ← optionalInt python inputs.minInsyncReplicas
  match replicas, minInsyncReplicas with
  | some replicas, some minInsyncReplicas =>
    return if minInsyncReplicas ≤ replicas then []
      else [text "Min In-Sync Replicas cannot exceed Replication Factor"]
  | _, _ => return []

/-- `validated_inputs`: the failures that are reported. -/
def failures (validators : TopicValidators python) (inputs : CreateInputs) :
    Outcome (List Text) := do
  let failures ← fieldFailures validators inputs
  if failures = [] then crossFieldFailures python inputs else return failures

/-- `action_create`: the command, or the failures that keep the form open. -/
def createCommand (validators : TopicValidators python) (inputs : CreateInputs) :
    Outcome (Except (List Text) CreateTopicCommand) := do
  let failures ← failures validators inputs
  if failures ≠ [] then return .error failures
  let partitions ← python.int inputs.partitions
  let replicas ← optionalInt python inputs.replicas
  let minInsyncReplicas ← optionalInt python inputs.minInsyncReplicas
  let retentionMs ← python.int inputs.retention
  return .ok {
    name := inputs.name
    partitions := partitions
    replicas := replicas
    minInsyncReplicas := minInsyncReplicas
    cleanupPolicy := (inputs.cleanupPolicy.getD .delete).str
    retentionMs := retentionMs }

end Form

end CreateTopicScreen

section Service

variable {D : Type} (python : Conversions D)

def minInsyncEntry : Option ℤ → Outcome (List (Text × Text))
  | none => .ok []
  | some number => (python.str number).map fun value => [(minInsyncReplicasConfig, value)]

/-- `TopicService.create`: the topic that it requests. -/
def CreateTopicCommand.newTopic (command : CreateTopicCommand) : Outcome NewTopic := do
  let retention ← python.str command.retentionMs
  let minInsync ← minInsyncEntry python command.minInsyncReplicas
  return {
    topic := command.name
    numPartitions := command.partitions
    replicationFactor := command.replicas.getD (-1)
    config := [(cleanupPolicyConfig, command.cleanupPolicy), (retentionMsConfig, retention)]
      ++ minInsync }

end Service

namespace CreateTopicScreen

variable {D : Type} {python : Conversions D} {validators : TopicValidators python}
  {inputs : CreateInputs}

/-- An optional input holds nothing, or a number that `int` reads. -/
def Holds (python : Conversions D) (value : Text) (number : Option ℤ) : Prop :=
  if value = [] then number = none else ∃ read, python.int value = .ok read ∧ number = some read

structure Accepts (validators : TopicValidators python) (inputs : CreateInputs)
    (command : CreateTopicCommand) : Prop where
  validName : validTopicName inputs.name = true
  name : command.name = inputs.name
  validPartitions : validators.failure 1 inputs.partitions = none
  partitions : python.int inputs.partitions = .ok command.partitions
  replicas : Holds python inputs.replicas command.replicas
  positiveReplicas : ∀ number ∈ command.replicas, isdigit inputs.replicas = true ∧ 1 ≤ number
  minInsyncReplicas : Holds python inputs.minInsyncReplicas command.minInsyncReplicas
  positiveMinInsync : ∀ number ∈ command.minInsyncReplicas,
    isdigit inputs.minInsyncReplicas = true ∧ 1 ≤ number
  atMostReplicas : ∀ minimum ∈ command.minInsyncReplicas, ∀ number ∈ command.replicas, minimum ≤ number
  validRetention : validators.retentionFailure inputs.retention = none
  retention : python.int inputs.retention = .ok command.retentionMs
  cleanupPolicy : command.cleanupPolicy = (inputs.cleanupPolicy.getD .delete).str

theorem optionalInt_eq_ok {value : Text} {number : Option ℤ} :
    optionalInt python value = .ok number ↔ Holds python value number := by
  rw [optionalInt, Holds]
  split_ifs with hempty
  · rw [Except.ok.injEq, eq_comm]
  · cases python.int value with
    | error e => simp [Except.map]
    | ok read => simp [Except.map, eq_comm]

theorem labelled_eq_nil {label : Text} {failure : Option Text} :
    labelled label failure = [] ↔ failure = none := by
  cases failure <;> simp [labelled]

theorem ite_none_iff {valid : Bool} {failure : Text} :
    (if valid then none else some failure) = none ↔ valid = true := by
  cases valid <;> simp

/-- An optional input is valid exactly where it holds nothing or a positive number of digits. -/
theorem validOptionalPositiveInteger_eq_true {value : Text} :
    EditTopicScreen.validOptionalPositiveInteger python value = .ok true ↔
      ∃ number, Holds python value number ∧ ∀ n ∈ number, isdigit value = true ∧ 1 ≤ n := by
  rw [EditTopicScreen.validOptionalPositiveInteger]
  by_cases hempty : value = []
  · rw [if_pos hempty]
    exact iff_of_true rfl ⟨none, if_pos hempty |>.mpr rfl, fun n hn => by cases hn⟩
  · rw [if_neg hempty]
    simp only [Holds, if_neg hempty]
    cases hread : python.int value with
    | error e =>
      constructor
      · intro h
        split_ifs at h
        all_goals cases h
      · rintro ⟨number, ⟨read, hok, -⟩, -⟩
        cases hok
    | ok read =>
      constructor
      · intro h
        split_ifs at h with hdigits
        · refine ⟨some read, ⟨read, rfl, rfl⟩, fun n hn => ⟨hdigits, ?_⟩⟩
          obtain rfl := Option.mem_some_iff.mp hn
          simpa [Except.map] using h
        · cases h
      · rintro ⟨number, ⟨same, hok, rfl⟩, hvalid⟩
        obtain rfl := Except.ok.inj hok
        obtain ⟨hdigits, hpositive⟩ := hvalid read rfl
        rw [if_pos hdigits]
        simpa [Except.map] using hpositive

theorem Holds.unique {value : Text} {first second : Option ℤ} (h : Holds python value first)
    (hsecond : Holds python value second) : first = second := by
  rw [Holds] at h hsecond
  split_ifs at h hsecond
  · rw [h, hsecond]
  · obtain ⟨read, hread, rfl⟩ := h
    obtain ⟨same, hsame, rfl⟩ := hsecond
    rw [hread] at hsame
    rw [Except.ok.inj hsame]

theorem fieldFailures_eq_nil :
    fieldFailures validators inputs = .ok [] ↔
      validTopicName inputs.name = true ∧ validators.failure 1 inputs.partitions = none ∧
        EditTopicScreen.validOptionalPositiveInteger python inputs.replicas = .ok true ∧
        EditTopicScreen.validOptionalPositiveInteger python inputs.minInsyncReplicas = .ok true ∧
        validators.retentionFailure inputs.retention = none := by
  rw [fieldFailures]
  cases EditTopicScreen.validOptionalPositiveInteger python inputs.replicas with
  | error e => simp [bind, Except.bind]
  | ok replicas =>
    cases EditTopicScreen.validOptionalPositiveInteger python inputs.minInsyncReplicas with
    | error e => simp [bind, Except.bind]
    | ok minInsyncReplicas =>
      simp only [bind, Except.bind, pure, Except.pure, Except.ok.injEq, List.append_eq_nil_iff,
        labelled_eq_nil, ite_none_iff, and_assoc]

theorem crossFieldFailures_eq_nil {replicas minInsyncReplicas : Option ℤ}
    (hreplicas : Holds python inputs.replicas replicas)
    (hminInsync : Holds python inputs.minInsyncReplicas minInsyncReplicas) :
    crossFieldFailures python inputs = .ok [] ↔
      ∀ minimum ∈ minInsyncReplicas, ∀ number ∈ replicas, minimum ≤ number := by
  rw [crossFieldFailures, optionalInt_eq_ok.mpr hreplicas, optionalInt_eq_ok.mpr hminInsync]
  cases replicas <;> cases minInsyncReplicas <;> simp [bind, Except.bind, pure, Except.pure]

theorem failures_eq_nil :
    failures validators inputs = .ok [] ↔
      fieldFailures validators inputs = .ok [] ∧ crossFieldFailures python inputs = .ok [] := by
  rw [failures]
  cases fieldFailures validators inputs with
  | error e => simp [bind, Except.bind]
  | ok found =>
    by_cases hnone : found = []
    · simp [bind, Except.bind, hnone]
    · simp [bind, Except.bind, pure, Except.pure, hnone]

/-- The form makes a command exactly of valid inputs, and it is the command that they spell. -/
theorem createCommand_eq_ok {command : CreateTopicCommand} :
    createCommand validators inputs = .ok (.ok command) ↔ Accepts validators inputs command := by
  constructor
  · intro h
    obtain ⟨found, hfound, h⟩ := bind_eq_ok.mp h
    split_ifs at h with hnone
    · cases h
    obtain rfl : found = [] := not_not.mp hnone
    obtain ⟨hfields, hcross⟩ := failures_eq_nil.mp hfound
    obtain ⟨hname, hvalid, hreplicas, hminInsync, hretention⟩ := fieldFailures_eq_nil.mp hfields
    obtain ⟨partitions, hpartitions, h⟩ := bind_eq_ok.mp h
    obtain ⟨replicas, hreadReplicas, h⟩ := bind_eq_ok.mp h
    obtain ⟨minInsyncReplicas, hreadMinInsync, h⟩ := bind_eq_ok.mp h
    obtain ⟨retentionMs, hreadRetention, h⟩ := bind_eq_ok.mp h
    obtain rfl := Except.ok.inj (Except.ok.inj h)
    rw [optionalInt_eq_ok] at hreadReplicas hreadMinInsync
    obtain ⟨first, hfirst, hpositive⟩ := validOptionalPositiveInteger_eq_true.mp hreplicas
    obtain ⟨second, hsecond, hpositiveMin⟩ := validOptionalPositiveInteger_eq_true.mp hminInsync
    obtain rfl := hfirst.unique hreadReplicas
    obtain rfl := hsecond.unique hreadMinInsync
    exact ⟨hname, rfl, hvalid, hpartitions, hreadReplicas, hpositive, hreadMinInsync, hpositiveMin,
      (crossFieldFailures_eq_nil hreadReplicas hreadMinInsync).mp hcross, hretention, hreadRetention,
      rfl⟩
  · intro h
    have hfields : fieldFailures validators inputs = .ok [] :=
      fieldFailures_eq_nil.mpr ⟨h.validName, h.validPartitions,
        validOptionalPositiveInteger_eq_true.mpr ⟨_, h.replicas, h.positiveReplicas⟩,
        validOptionalPositiveInteger_eq_true.mpr ⟨_, h.minInsyncReplicas, h.positiveMinInsync⟩,
        h.validRetention⟩
    have hcross : crossFieldFailures python inputs = .ok [] :=
      (crossFieldFailures_eq_nil h.replicas h.minInsyncReplicas).mpr h.atMostReplicas
    rw [createCommand, failures_eq_nil.mpr ⟨hfields, hcross⟩, h.partitions,
      optionalInt_eq_ok.mpr h.replicas, optionalInt_eq_ok.mpr h.minInsyncReplicas, h.retention]
    simp only [bind, Except.bind, pure, Except.pure, ne_eq, not_true_eq_false, if_false]
    rw [← h.name, ← h.cleanupPolicy]

end CreateTopicScreen

/-- A topic that the cluster is asked for. Without a replication factor it takes the broker's. -/
structure NewTopic.WellFormed (topic : NewTopic) : Prop where
  name : CreateTopicScreen.validTopicName topic.topic = true
  numPartitions : 1 ≤ topic.numPartitions
  replicationFactor : topic.replicationFactor = -1 ∨ 1 ≤ topic.replicationFactor
  cleanupPolicy : ∃ policy : CleanupPolicy, (cleanupPolicyConfig, policy.str) ∈ topic.config
  retention : ∃ number : ℤ, -1 ≤ number ∧ (retentionMsConfig, intText number) ∈ topic.config
  minInsyncReplicas : ∀ value, (minInsyncReplicasConfig, value) ∈ topic.config →
    ∃ number : ℤ, value = intText number ∧ 1 ≤ number ∧
      (topic.replicationFactor = -1 ∨ number ≤ topic.replicationFactor)

section Requests

variable {D : Type} {python : Conversions D} {validators : TopicValidators python}
  {inputs : CreateInputs} {command : CreateTopicCommand}

theorem CreateTopicScreen.Holds.int {value : Text} {number : ℤ}
    (h : CreateTopicScreen.Holds python value (some number)) : python.int value = .ok number := by
  rw [Holds] at h
  split_ifs at h
  obtain ⟨read, hread, hnumber⟩ := h
  rw [hread, Option.some.inj hnumber]

theorem minInsyncEntry_of_holds {value : Text} {number : Option ℤ}
    (h : CreateTopicScreen.Holds python value number) :
    minInsyncEntry python number =
      .ok (number.map fun n => (minInsyncReplicasConfig, intText n)).toList := by
  cases number with
  | none => rfl
  | some n =>
    rw [minInsyncEntry, str_of_int h.int]
    rfl

/-- What the form lets through is requested, and is well formed. -/
theorem CreateTopicScreen.Accepts.newTopic (h : Accepts validators inputs command) :
    ∃ topic, command.newTopic python = .ok topic ∧ topic.WellFormed := by
  have hretention : python.str command.retentionMs = .ok (intText command.retentionMs) :=
    str_of_int h.retention
  rw [CreateTopicCommand.newTopic, hretention, minInsyncEntry_of_holds h.minInsyncReplicas]
  refine ⟨_, rfl, ?_, ?_, ?_, ?_, ?_, fun value hvalue => ?_⟩
  · exact h.name ▸ h.validName
  · simpa using validators.atLeast 1 _ _ h.validPartitions h.partitions
  · cases hgiven : command.replicas with
    | none => exact .inl rfl
    | some number => exact .inr (h.positiveReplicas number hgiven).2
  · refine ⟨inputs.cleanupPolicy.getD .delete, ?_⟩
    rw [h.cleanupPolicy]
    exact List.mem_cons_self
  · refine ⟨command.retentionMs, ?_, List.mem_cons_of_mem _ List.mem_cons_self⟩
    obtain ⟨number, hnumber, hatLeast⟩ := validators.retention _ h.validRetention
    rwa [Except.ok.inj (h.retention.symm.trans hnumber)]
  · have hentry : (minInsyncReplicasConfig, value) ∈
        (command.minInsyncReplicas.map fun n => (minInsyncReplicasConfig, intText n)).toList := by
      rcases List.mem_append.mp hvalue with hfixed | hentry
      · simp only [List.mem_cons, Prod.mk.injEq, List.not_mem_nil, or_false] at hfixed
        rcases hfixed with ⟨hname, -⟩ | ⟨hname, -⟩
        · exact absurd hname (by decide)
        · exact absurd hname (by decide)
      · exact hentry
    obtain ⟨number, hnumber, hvalue⟩ := Option.map_eq_some_iff.mp (Option.mem_toList.mp hentry)
    refine ⟨number, (Prod.mk.inj hvalue).2.symm, (h.positiveMinInsync number hnumber).2, ?_⟩
    cases hgiven : command.replicas with
    | none => exact .inl rfl
    | some replicas => exact .inr (h.atMostReplicas number hnumber replicas hgiven)

end Requests

/-- How a validator that converts with `int` refuses a value. -/
def minimumFailure {D : Type} (python : Conversions D) (minimum : ℤ) (value : Text) : Option Text :=
  match python.int value with
  | .ok number =>
    if minimum ≤ number then none
    else some (text "Must be greater than or equal to " ++ intText minimum)
  | .error _ => some (text "Must be a valid integer")

theorem minimumFailure_eq_none {D : Type} {python : Conversions D} {minimum : ℤ} {value : Text} :
    minimumFailure python minimum value = none ↔
      ∃ number, python.int value = .ok number ∧ minimum ≤ number := by
  rw [minimumFailure]
  cases python.int value with
  | error e => simp
  | ok number => simp

/-- Validators that convert with `int`. -/
def TopicValidators.ofInt {D : Type} (python : Conversions D) : TopicValidators python where
  failure minimum := minimumFailure python minimum
  converts _ _ h := (minimumFailure_eq_none.mp h).imp fun _ => And.left
  atLeast minimum value number h hnumber := by
    obtain ⟨read, hread, hminimum⟩ := minimumFailure_eq_none.mp h
    rwa [Except.ok.inj (hnumber.symm.trans hread)]
  retentionFailure := minimumFailure python (-1)
  retention _ := minimumFailure_eq_none.mp

end Kaskade
