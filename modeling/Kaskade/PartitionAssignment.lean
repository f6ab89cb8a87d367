import Kaskade.ConsumerRecords
import Kaskade.PartitionSelections

/-!
# The start of a consumer

`ConsumerService.start`: it subscribes, or looks up the topic and assigns partitions after it has
checked the selected offsets against their watermarks. What the client answers is a parameter.
-/

namespace Kaskade

open Python

def offsetBeginning : ℤ := -2

def offsetEnd : ℤ := -1

structure TopicPartition where
  topic : Text
  partition : ℤ
  offset : ℤ
  deriving DecidableEq

/-- The `TopicMetadata` of a topic that is looked up: an error, if there is one, and the keys of
its partitions. -/
structure LookedUpTopic where
  error : Option KafkaError
  partitions : List ℤ

structure AssigningConsumer where
  listTopics : Text → Outcome (Text → Option LookedUpTopic)
  /-- The low and the high watermark, or `None` when the request times out. -/
  getWatermarkOffsets : Text → ℤ → Outcome (Option (ℤ × ℤ))
  subscribe : Text → Outcome Unit
  assign : List TopicPartition → Outcome Unit

inductive StartException where
  /-- `PartitionSelectionError`. -/
  | partitionSelection (message : Text)
  | other (e : PyException)
  deriving DecidableEq

/-- The settings that `start` reads. -/
structure StartSettings where
  topic : Text
  partitions : List PartitionSelection
  /-- Whether `auto.offset.reset` is `earliest`. -/
  earliest : Bool

/-- What `start` changes. -/
structure StartState where
  started : Bool := false
  stable : Bool := false
  subscribed : Option Text := none
  assigned : Option (List TopicPartition) := none
  deriving DecidableEq

namespace StartSettings

variable (repr : Text → Text) (consumer : AssigningConsumer) (settings : StartSettings)

def manuallyAssigned : Bool := settings.partitions ≠ [] || settings.earliest

def availablePartitions : Except StartException (List ℤ) :=
  match consumer.listTopics settings.topic with
  | .error e => .error (.other e)
  | .ok topics =>
    match topics settings.topic with
    | none => .error (.partitionSelection (text "Topic " ++ repr settings.topic ++ text " does not exist"))
    | some topicMetadata =>
      match topicMetadata.error with
      | some error => .error (.other error.exception)
      | none => .ok topicMetadata.partitions.dedup

def assignmentOffset (selection : PartitionSelection) : ℤ :=
  match selection.offset with
  | some .earliest => offsetBeginning
  | none => offsetEnd
  | some (.absolute offset) => offset

def missingPartitionMessage (partition : ℤ) : Text :=
  text "Partition " ++ intText partition ++ text " does not exist in topic " ++ repr settings.topic

def outOfRangeMessage (partition offset low high : ℤ) : Text :=
  text "Offset " ++ intText offset ++ text " is out of range for partition " ++ intText partition
    ++ text "; available offsets are " ++ intText low ++ text " through " ++ intText high

def checkOffset (partition offset : ℤ) : Except StartException Unit :=
  match consumer.getWatermarkOffsets settings.topic partition with
  | .error e => .error (.other e)
  | .ok none =>
    .error (.other ⟨.typeError, text "cannot unpack non-iterable NoneType object"⟩)
  | .ok (some (low, high)) =>
    if low ≤ offset ∧ offset ≤ high then .ok ()
    else .error (.partitionSelection (outOfRangeMessage partition offset low high))

def assignment (available : List ℤ) (selection : PartitionSelection) :
    Except StartException TopicPartition :=
  if selection.partition ∉ available then
    .error (.partitionSelection (settings.missingPartitionMessage repr selection.partition))
  else
    let checked := match selection.offset with
      | some (.absolute offset) => settings.checkOffset consumer selection.partition offset
      | _ => .ok ()
    checked.map fun _ => ⟨settings.topic, selection.partition, assignmentOffset selection⟩

/-- The selections of a consumer that is assigned: those of the command line, or all partitions. -/
def selections (available : List ℤ) : List PartitionSelection :=
  if settings.partitions ≠ [] then settings.partitions
  else (available.mergeSort (· ≤ ·)).map fun partition => ⟨partition, some .earliest⟩

def assignments : Except StartException (List TopicPartition) := do
  let available ← settings.availablePartitions repr consumer
  (settings.selections available).mapM (settings.assignment repr consumer available)

def onAssign (s : StartState) : StartState := { s with stable := true }

def startConsuming (s : StartState) : Except StartException Unit × StartState :=
  if settings.manuallyAssigned then
    match settings.assignments repr consumer with
    | .error e => (.error e, s)
    | .ok assignments =>
      match consumer.assign assignments with
      | .error e => (.error (.other e), s)
      | .ok () => (.ok (), onAssign { s with assigned := some assignments })
  else
    match consumer.subscribe settings.topic with
    | .error e => (.error (.other e), s)
    | .ok () => (.ok (), { s with subscribed := some settings.topic })

def start (s : StartState) : Except StartException Unit × StartState :=
  if s.started then (.ok (), s)
  else
    match settings.startConsuming repr consumer s with
    | (.error e, t) => (.error e, t)
    | (.ok (), t) => (.ok (), { t with started := true })

variable {repr consumer settings}

/-- The partition of a selection, with the offset that the selection stands for. -/
def Assigned (consumer : AssigningConsumer) (topic : Text) (available : List ℤ)
    (selection : PartitionSelection) (assigned : TopicPartition) : Prop :=
  assigned.topic = topic ∧ assigned.partition = selection.partition ∧
    selection.partition ∈ available ∧
    match selection.offset with
    | none => assigned.offset = offsetEnd
    | some .earliest => assigned.offset = offsetBeginning
    | some (.absolute offset) => assigned.offset = offset ∧
      ∃ low high, consumer.getWatermarkOffsets topic selection.partition = .ok (some (low, high)) ∧
        low ≤ offset ∧ offset ≤ high

theorem checkOffset_eq_ok {partition offset : ℤ} :
    settings.checkOffset consumer partition offset = .ok () ↔
      ∃ low high, consumer.getWatermarkOffsets settings.topic partition = .ok (some (low, high)) ∧
        low ≤ offset ∧ offset ≤ high := by
  rw [checkOffset]
  cases consumer.getWatermarkOffsets settings.topic partition with
  | error e => simp
  | ok watermarks =>
    cases watermarks with
    | none => simp
    | some watermarks =>
      obtain ⟨low, high⟩ := watermarks
      by_cases hrange : low ≤ offset ∧ offset ≤ high <;> simp [hrange]

theorem assignment_eq_ok {available : List ℤ} {selection : PartitionSelection}
    {assigned : TopicPartition} :
    settings.assignment repr consumer available selection = .ok assigned ↔
      Assigned consumer settings.topic available selection assigned := by
  obtain ⟨topic, partition, offset⟩ := assigned
  by_cases havailable : selection.partition ∈ available
  · cases hoffset : selection.offset with
    | none =>
      simp [assignment, Assigned, assignmentOffset, Except.map, havailable, hoffset, eq_comm]
    | some selected =>
      cases selected with
      | earliest =>
        simp [assignment, Assigned, assignmentOffset, Except.map, havailable, hoffset, eq_comm]
      | absolute selected =>
        rw [Assigned, hoffset]
        simp only [← checkOffset_eq_ok]
        cases hchecked : settings.checkOffset consumer selection.partition selected <;>
          simp [assignment, assignmentOffset, Except.map, havailable, hoffset, hchecked, eq_comm]
  · simp [assignment, Assigned, havailable]

theorem assignments_eq_ok {assignments : List TopicPartition} :
    settings.assignments repr consumer = .ok assignments ↔
      ∃ available, settings.availablePartitions repr consumer = .ok available ∧
        List.Forall₂ (Assigned consumer settings.topic available) (settings.selections available)
          assignments := by
  rw [StartSettings.assignments]
  cases settings.availablePartitions repr consumer with
  | error e => simp [bind, Except.bind]
  | ok available => simp [bind, Except.bind, mapM_eq_ok, assignment_eq_ok]

/-- A consumer that assigns partitions assigns one for each selection, or raises and stays as it
is. -/
theorem start_assigns {s : StartState} (hs : s.started = false)
    (h : settings.manuallyAssigned = true) :
    (∃ available assignments, settings.availablePartitions repr consumer = .ok available ∧
      List.Forall₂ (Assigned consumer settings.topic available) (settings.selections available)
        assignments ∧
      settings.start repr consumer s =
        (.ok (), { s with started := true, stable := true, assigned := some assignments })) ∨
    ∃ e, settings.start repr consumer s = (.error e, s) := by
  rw [start, hs, startConsuming, h]
  cases hassignments : settings.assignments repr consumer with
  | error e => exact .inr ⟨e, rfl⟩
  | ok assignments =>
    cases hassign : consumer.assign assignments with
    | error e => exact .inr ⟨.other e, by simp [hassign]⟩
    | ok _ =>
      obtain ⟨available, havailable, hall⟩ := assignments_eq_ok.mp hassignments
      exact .inl ⟨available, assignments, havailable, hall, by simp [hassign, onAssign]⟩

/-- A consumer that does not assign partitions subscribes, or raises and stays as it is. -/
theorem start_subscribes {s : StartState} (hs : s.started = false)
    (h : settings.manuallyAssigned = false) :
    settings.start repr consumer s =
        (.ok (), { s with started := true, subscribed := some settings.topic }) ∨
      ∃ e, settings.start repr consumer s = (.error e, s) := by
  rw [start, hs, startConsuming, h]
  cases hsubscribe : consumer.subscribe settings.topic with
  | error e => exact .inr ⟨.other e, by simp⟩
  | ok _ => exact .inl (by simp)

variable (repr consumer settings) in
/-- `start` assigns one partition for each selection of the command line and makes the consumer
stable, or raises and has changed nothing. -/
def AssignsOrRaises : Prop :=
  (∃ available assignments, settings.availablePartitions repr consumer = .ok available ∧
    List.Forall₂ (Assigned consumer settings.topic available) settings.partitions assignments ∧
    settings.start repr consumer {} =
      (.ok (), { started := true, stable := true, assigned := some assignments })) ∨
  ∃ e, settings.start repr consumer {} = (.error e, {})

/-- What the command line accepts for `--partition`, and what `start` makes of it: partitions
that were selected are assigned, or `start` raises. Without a selection it subscribes. -/
theorem selections_started :
    (∀ repr values selections, PartitionSelection.parse repr values = .ok selections ↔
      List.Forall₂ PartitionSelection.Form values selections ∧
        (selections.map (·.partition)).Nodup) ∧
    (∀ repr values selections, PartitionSelection.parse repr values = .ok selections → values ≠ [] →
      ∀ consumer topic earliest, AssignsOrRaises repr consumer ⟨topic, selections, earliest⟩) ∧
    ∀ repr consumer topic,
      let settings : StartSettings := ⟨topic, [], false⟩
      settings.start repr consumer {} = (.ok (), { started := true, subscribed := some topic }) ∨
        ∃ e, settings.start repr consumer {} = (.error e, {}) := by
  refine ⟨fun _ _ _ => PartitionSelection.parse_eq_ok, ?_, fun _ _ _ => start_subscribes rfl rfl⟩
  intro repr values selections hparse hvalues consumer topic earliest
  have hselections : selections ≠ [] := by
    have hforms := (PartitionSelection.parse_eq_ok.mp hparse).1
    rintro rfl
    exact hvalues (List.forall₂_nil_right_iff.mp hforms)
  let settings : StartSettings := ⟨topic, selections, earliest⟩
  have hmanual : settings.manuallyAssigned = true := by
    simp [manuallyAssigned, settings, hselections]
  have hall : ∀ available, settings.selections available = selections := fun available =>
    if_pos hselections
  have hstart := @start_assigns repr consumer settings {} rfl hmanual
  simp only [hall] at hstart
  exact hstart

/-- A client of a topic `orders` with three partitions. -/
def ordersConsumer : AssigningConsumer where
  listTopics _ := .ok fun topic => if topic = text "orders" then some ⟨none, [1, 2, 3]⟩ else none
  getWatermarkOffsets _ _ := .ok (some (0, 100))
  subscribe _ := .ok ()
  assign _ := .ok ()

def ordersSelections : List PartitionSelection :=
  [⟨1, some (.absolute 10)⟩, ⟨2, none⟩, ⟨3, some .earliest⟩]

theorem orders_selections_started :
    ∃ assignments,
      StartSettings.start id ordersConsumer ⟨text "orders", ordersSelections, false⟩ {} =
        (.ok (), { started := true, stable := true, assigned := some assignments }) ∧
      List.Forall₂ (Assigned ordersConsumer (text "orders") [1, 2, 3]) ordersSelections
        assignments := by
  have hparse : PartitionSelection.parse id [text "1:10", text "02", text "3:earliest"] =
      .ok ordersSelections := by decide
  rcases selections_started.2.1 id _ _ hparse nofun ordersConsumer (text "orders") false with
    ⟨available, assignments, havailable, hall, hstart⟩ | ⟨e, hstart⟩
  · cases havailable
    exact ⟨assignments, hstart, hall⟩
  · cases hstart

/-- Without any selection `start` assigns nothing, and the consumer is started but not stable. -/
theorem no_selection_not_assigned :
    PartitionSelection.parse id [] = .ok [] ∧
      ¬ AssignsOrRaises id ordersConsumer ⟨text "orders", [], false⟩ ∧
      StartSettings.start id ordersConsumer ⟨text "orders", [], false⟩ {} =
        (.ok (), { started := true, subscribed := some (text "orders") }) := by
  refine ⟨rfl, ?_, rfl⟩
  rintro (⟨_, _, -, -, hstart⟩ | ⟨_, hstart⟩)
  · cases hstart
  · cases hstart

end StartSettings

end Kaskade
