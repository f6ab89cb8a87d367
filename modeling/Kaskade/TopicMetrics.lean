import Kaskade.Serializers
import Mathlib.Data.Finset.Basic

/-!
# Metrics of topics

How `TopicService` and `ListTopics` fill in the metrics of a topic: fresh topics from the
metadata, watermarks from one load of the offsets, consumer groups from one snapshot, and what is
carried over from the topic shown before. Each only ever marks as ready what it completed.
-/

namespace Kaskade

open Python

inductive MetricState where
  | loading
  | ready
  | unavailable
  deriving DecidableEq

structure Partition where
  id : ℤ
  low : ℤ := 0
  high : ℤ := 0

structure Node where
  id : ℤ
  host : Text
  port : ℤ
  rack : Option Text

structure GroupMember where
  id : Text
  clientId : Text
  group : Text
  host : Text
  instanceId : Option Text
  assignment : List ℤ

structure GroupPartition where
  id : ℤ
  topic : Text
  group : Text
  offset : ℤ
  low : ℤ
  high : ℤ

structure Group where
  id : Text
  coordinator : Option Node
  state : Text
  partitionAssignor : Text
  members : List GroupMember
  partitions : List GroupPartition

structure Topic where
  name : Text
  partitions : List Partition := []
  groups : List Group := []
  recordsState : MetricState := .loading
  groupsState : MetricState := .loading

def Topic.partitionIds (topic : Topic) : Finset ℤ := (topic.partitions.map (·.id)).toFinset

/-- `topics.get(name)`; the topics of a dictionary are listed in its order. -/
def topicNamed (topics : List Topic) (name : Text) : Option Topic := topics.find? (·.name = name)

/-- `topics[topic.name] = topic`. -/
def setTopic (topics : List Topic) (topic : Topic) : List Topic :=
  if topics.any (·.name = topic.name) then
    topics.map fun other => if other.name = topic.name then topic else other
  else topics ++ [topic]

structure TopicMetadata where
  topic : Text
  partitions : List ℤ

/-- The body of the loop of `_map_topics`. -/
def TopicMetadata.mapTopic (metadata : TopicMetadata) : Topic where
  name := metadata.topic
  partitions := metadata.partitions.map fun id => { id := id }

def mapTopics (topicsMetadata : List TopicMetadata) : List Topic :=
  topicsMetadata.foldl (fun topics metadata => setTopic topics metadata.mapTopic) []

/-- `{partition.id: partition for ...}[id]`: of two partitions with the same ID the later. -/
def partitionWith (partitions : List Partition) (id : ℤ) : Option Partition :=
  partitions.reverse.find? (·.id = id)

/-- The partitions of a refreshed topic with the watermarks of the topic shown before. -/
def withWatermarks (previous refreshed : Topic) : List Partition :=
  refreshed.partitions.map fun partition =>
    -- both have the same IDs, so the lookup never fails
    match partitionWith previous.partitions partition.id with
    | none => partition
    | some kept => { partition with low := kept.low, high := kept.high }

/-- The body of the loop of `_preserve_completed_metrics`. -/
def preserveCompletedMetrics (shown : List Topic) (refreshed : Topic) : Topic :=
  match topicNamed shown refreshed.name with
  | none => refreshed
  | some previous =>
    if previous.partitionIds ≠ refreshed.partitionIds then refreshed
    else
      let refreshed :=
        if previous.recordsState = .ready then
          { refreshed with
            partitions := withWatermarks previous refreshed
            recordsState := .ready }
        else refreshed
      if previous.groupsState = .ready then
        { refreshed with groups := previous.groups, groupsState := .ready }
      else refreshed

/-- What `_load_partition_offsets` returns besides the errors: the offsets that were resolved, by
topic name and partition. -/
structure OffsetLoad where
  earliest : Text → ℤ → Option ℤ
  latest : Text → ℤ → Option ℤ

/-- The body of the loop of `_apply_partition_offsets`. -/
def OffsetLoad.apply (load : OffsetLoad) (topic : Topic) : Topic :=
  let topicOffsets := topic.partitions.map fun partition =>
    (partition, load.earliest topic.name partition.id, load.latest topic.name partition.id)
  if topicOffsets.any fun (_, low, high) => low.isNone || high.isNone then
    if topic.recordsState ≠ .ready then { topic with recordsState := .unavailable } else topic
  else
    { topic with
      partitions := topicOffsets.map fun
        | (partition, some low, some high) => { partition with low := low, high := high }
        | (partition, _, _) => partition
      recordsState := .ready }

def setRecordsState (topics : List Topic) (state : MetricState) : List Topic :=
  topics.map fun topic =>
    if topic.recordsState ≠ .ready then { topic with recordsState := state } else topic

/-- Whether `_partition_lookup` is empty. -/
def noPartitions (topics : List Topic) : Bool := topics.all (·.partitions.isEmpty)

/-- `enrich_offsets`, given what the load of the offsets would return. -/
def enrichOffsets (topics : List Topic) (load : OffsetLoad) : List Topic :=
  if noPartitions topics then setRecordsState topics .ready else topics.map load.apply

structure CommittedOffset where
  topic : Text
  partition : ℤ
  offset : ℤ

def offsetInvalid : ℤ := -1001

structure MemberDescription where
  memberId : Text
  clientId : Text
  host : Text
  groupInstanceId : Option Text
  assignment : List (Text × ℤ)

structure ConsumerGroupDescription where
  groupId : Text
  partitionAssignor : Text
  /-- The name of the state. -/
  state : Text
  coordinator : Option Node
  members : List MemberDescription

structure GroupSnapshot where
  descriptions : List ConsumerGroupDescription := []
  offsets : Text → List CommittedOffset := fun _ => []
  /-- Whether any part of the load failed. -/
  errors : Bool := false

def committedByTopic (topics : List Topic) (offsets : List CommittedOffset) :
    List (Text × List CommittedOffset) :=
  (offsets.filter fun committed =>
    committed.offset ≠ offsetInvalid ∧ (topicNamed topics committed.topic).isSome).foldl
      (fun byTopic committed =>
        if byTopic.any (·.1 = committed.topic) then
          byTopic.map fun (name, list) =>
            (name, if name = committed.topic then list ++ [committed] else list)
        else byTopic ++ [(committed.topic, [committed])]) []

def mapGroupPartitions (topics : List Topic) (groupId topicName : Text)
    (committedPartitions : List CommittedOffset) : List GroupPartition :=
  committedPartitions.filterMap fun committed =>
    ((topicNamed topics topicName).bind (partitionWith ·.partitions committed.partition)).map
      fun partition =>
        { id := committed.partition, topic := topicName, group := groupId
          offset := committed.offset, low := partition.low, high := partition.high }

def mapGroupMembers (metadata : ConsumerGroupDescription) (topicName : Text) : List GroupMember :=
  metadata.members.filterMap fun member =>
    let assignments := (member.assignment.filter (·.1 = topicName)).map (·.2)
    if assignments = [] then none
    else some
      { id := member.memberId, clientId := member.clientId, group := metadata.groupId
        host := member.host, instanceId := member.groupInstanceId, assignment := assignments }

def mapGroup (topics : List Topic) (metadata : ConsumerGroupDescription) (topicName : Text)
    (committedPartitions : List CommittedOffset) : Group where
  id := metadata.groupId
  coordinator := metadata.coordinator
  state := metadata.state.map lowerChr
  partitionAssignor := metadata.partitionAssignor
  members := mapGroupMembers metadata topicName
  partitions := mapGroupPartitions topics metadata.groupId topicName committedPartitions

def setGroupsUnavailable (topic : Topic) : Topic :=
  if topic.groupsState ≠ .ready then { topic with groupsState := .unavailable } else topic

def resetGroups (topic : Topic) : Topic :=
  { topic with
    groups := []
    groupsState := if topic.recordsState = .ready then .ready else .unavailable }

def appendGroup (topics : List Topic) (name : Text) (group : Group) : List Topic :=
  topics.map fun topic =>
    if topic.name = name then { topic with groups := topic.groups ++ [group] } else topic

def applyGroups (topics : List Topic) (snapshot : GroupSnapshot) : List Topic :=
  if snapshot.errors then topics.map setGroupsUnavailable
  else
    snapshot.descriptions.foldl
      (fun enriched metadata =>
        (committedByTopic topics (snapshot.offsets metadata.groupId)).foldl
          (fun enriched (name, committed) =>
            let group := mapGroup topics metadata name committed
            if group.partitions = [] then enriched else appendGroup enriched name group)
          enriched)
      (topics.map resetGroups)

def OffsetLoad.Gives (load : OffsetLoad) (topic : Topic) : Prop :=
  ∀ partition ∈ topic.partitions,
    load.earliest topic.name partition.id = some partition.low ∧
      load.latest topic.name partition.id = some partition.high

/-- Ready groups come with ready records, and ready records from one of the loads. -/
structure Measured (loads : List OffsetLoad) (topic : Topic) : Prop where
  groups : topic.groupsState = .ready → topic.recordsState = .ready
  records : topic.recordsState = .ready →
    topic.partitions = [] ∨ ∃ load ∈ loads, load.Gives topic

/-- What was ready stays ready. -/
structure Keeps (before after : Topic) : Prop where
  records : before.recordsState = .ready → after.recordsState = .ready
  groups : before.groupsState = .ready → after.groupsState = .ready

/-- The same topic with further metrics. -/
structure Enriches (before after : Topic) : Prop extends Keeps before after where
  name_eq : after.name = before.name
  partitionIds_eq : after.partitionIds = before.partitionIds

theorem Keeps.refl (topic : Topic) : Keeps topic topic := ⟨id, id⟩

theorem Keeps.trans {before between after : Topic} (h : Keeps before between)
    (h' : Keeps between after) : Keeps before after :=
  ⟨fun hready => h'.records (h.records hready), fun hready => h'.groups (h.groups hready)⟩

theorem Measured.mono {loads loads' : List OffsetLoad} (hloads : loads ⊆ loads') {topic : Topic}
    (h : Measured loads topic) : Measured loads' topic := by
  refine ⟨h.groups, fun hready => (h.records hready).imp_right ?_⟩
  exact fun ⟨load, hload, hgives⟩ => ⟨load, hloads hload, hgives⟩

theorem mem_setTopic {topics : List Topic} {topic t : Topic} (h : t ∈ setTopic topics topic) :
    t ∈ topics ∨ t = topic := by
  rw [setTopic] at h
  split_ifs at h
  · obtain ⟨other, hother, rfl⟩ := List.mem_map.mp h
    split_ifs
    · exact .inr rfl
    · exact .inl hother
  · exact (List.mem_append.mp h).imp_right List.mem_singleton.mp

theorem mapTopics_loading (topicsMetadata : List TopicMetadata) :
    ∀ topic ∈ mapTopics topicsMetadata,
      topic.recordsState = .loading ∧ topic.groupsState = .loading := by
  rw [mapTopics]
  induction topicsMetadata using List.reverseRecOn with
  | nil => exact nofun
  | append_singleton before metadata ih =>
    rw [List.foldl_append]
    intro topic htopic
    rcases mem_setTopic htopic with hold | rfl
    · exact ih topic hold
    · exact ⟨rfl, rfl⟩

theorem setTopic_nodup {topics : List Topic} (topic : Topic) (h : (topics.map (·.name)).Nodup) :
    ((setTopic topics topic).map (·.name)).Nodup := by
  rw [setTopic]
  split_ifs with hmem
  · have hsame : (topics.map fun other => if other.name = topic.name then topic else other).map (·.name) =
        topics.map (·.name) := by
      rw [List.map_map]
      apply List.map_congr_left
      intro other _
      rw [Function.comp_apply]
      split_ifs with hname
      · exact hname.symm
      · rfl
    rwa [hsame]
  · rw [List.map_append, List.map_singleton, List.nodup_append_comm]
    refine List.nodup_cons.mpr ⟨fun hname => hmem ?_, h⟩
    obtain ⟨other, hother, hname⟩ := List.mem_map.mp hname
    exact List.any_eq_true.mpr ⟨other, hother, by simpa using hname⟩

theorem mapTopics_nodup (topicsMetadata : List TopicMetadata) :
    ((mapTopics topicsMetadata).map (·.name)).Nodup := by
  rw [mapTopics]
  induction topicsMetadata using List.reverseRecOn with
  | nil => exact List.nodup_nil
  | append_singleton before metadata ih =>
    rw [List.foldl_append]
    exact setTopic_nodup _ ih

theorem partitionIds_eq_empty {topic : Topic} : topic.partitionIds = ∅ ↔ topic.partitions = [] := by
  simp [Topic.partitionIds]

theorem partitionWith_mem {partitions : List Partition} {id : ℤ} {partition : Partition}
    (h : partitionWith partitions id = some partition) :
    partition ∈ partitions ∧ partition.id = id :=
  ⟨List.mem_reverse.mp (List.mem_of_find?_eq_some h), by simpa using List.find?_some h⟩

theorem partitionWith_isSome {topic : Topic} {id : ℤ} (h : id ∈ topic.partitionIds) :
    ∃ partition, partitionWith topic.partitions id = some partition := by
  obtain ⟨partition, hpartition, hid⟩ := List.mem_map.mp (List.mem_toFinset.mp h)
  rw [← Option.isSome_iff_exists, partitionWith, List.find?_isSome]
  exact ⟨partition, List.mem_reverse.mpr hpartition, by simpa using hid⟩

theorem withWatermarks_ids (previous refreshed : Topic) :
    (withWatermarks previous refreshed).map (·.id) = refreshed.partitions.map (·.id) := by
  rw [withWatermarks, List.map_map]
  apply List.map_congr_left
  intro partition _
  simp only [Function.comp_apply]
  split <;> rfl

theorem preserve_some {shown : List Topic} {previous refreshed : Topic}
    (hfound : topicNamed shown refreshed.name = some previous)
    (hids : previous.partitionIds = refreshed.partitionIds) :
    preserveCompletedMetrics shown refreshed =
      { refreshed with
        partitions :=
          if previous.recordsState = .ready then withWatermarks previous refreshed
          else refreshed.partitions
        recordsState := if previous.recordsState = .ready then .ready else refreshed.recordsState
        groups := if previous.groupsState = .ready then previous.groups else refreshed.groups
        groupsState := if previous.groupsState = .ready then .ready else refreshed.groupsState } := by
  simp only [preserveCompletedMetrics, hfound, hids, ne_eq, not_true_eq_false, if_false]
  split_ifs <;> rfl

theorem topicNamed_name {topics : List Topic} {name : Text} {topic : Topic}
    (h : topicNamed topics name = some topic) : topic ∈ topics ∧ topic.name = name :=
  ⟨List.mem_of_find?_eq_some h, by simpa using List.find?_some h⟩

theorem topicNamed_of_mem {topics : List Topic} (hdistinct : (topics.map (·.name)).Nodup)
    {topic : Topic} (h : topic ∈ topics) : topicNamed topics topic.name = some topic := by
  cases hfound : topicNamed topics topic.name with
  | none => simpa using List.find?_eq_none.mp hfound topic h
  | some other =>
    have hother := topicNamed_name hfound
    rw [List.inj_on_of_nodup_map hdistinct hother.1 h hother.2]

theorem preserve_cases (shown : List Topic) (refreshed : Topic) :
    (preserveCompletedMetrics shown refreshed = refreshed ∧
      ∀ previous, topicNamed shown refreshed.name = some previous →
        previous.partitionIds ≠ refreshed.partitionIds) ∨
    ∃ previous, topicNamed shown refreshed.name = some previous ∧
      previous.partitionIds = refreshed.partitionIds := by
  cases hfound : topicNamed shown refreshed.name with
  | none => exact .inl ⟨by simp only [preserveCompletedMetrics, hfound], nofun⟩
  | some previous =>
    by_cases hids : previous.partitionIds = refreshed.partitionIds
    · exact .inr ⟨previous, rfl, hids⟩
    · refine .inl ⟨by simp only [preserveCompletedMetrics, hfound, ne_eq, hids, not_false_eq_true,
        if_true], ?_⟩
      rintro _ ⟨⟩
      exact hids

theorem preserve_name (shown : List Topic) (refreshed : Topic) :
    (preserveCompletedMetrics shown refreshed).name = refreshed.name := by
  rcases preserve_cases shown refreshed with ⟨hsame, -⟩ | ⟨previous, hfound, hids⟩
  · rw [hsame]
  · rw [preserve_some hfound hids]

theorem preserve_partitionIds (shown : List Topic) (refreshed : Topic) :
    (preserveCompletedMetrics shown refreshed).partitionIds = refreshed.partitionIds := by
  rcases preserve_cases shown refreshed with ⟨hsame, -⟩ | ⟨previous, hfound, hids⟩
  · rw [hsame]
  · rw [preserve_some hfound hids]
    by_cases hready : previous.recordsState = .ready
    · simp only [if_pos hready, Topic.partitionIds, withWatermarks_ids]
    · simp only [if_neg hready, Topic.partitionIds]

/-- The metrics of a topic that keeps its name and its partitions are preserved. -/
theorem preserve_keeps {shown : List Topic} {previous refreshed : Topic}
    (hfound : topicNamed shown refreshed.name = some previous)
    (hids : previous.partitionIds = refreshed.partitionIds) :
    Keeps previous (preserveCompletedMetrics shown refreshed) := by
  rw [preserve_some hfound hids]
  constructor
  · exact fun hready => if_pos hready
  · exact fun hready => if_pos hready

theorem withWatermarks_gives {previous refreshed : Topic} {load : OffsetLoad}
    (hname : previous.name = refreshed.name) (hids : previous.partitionIds = refreshed.partitionIds)
    (h : load.Gives previous) :
    load.Gives { refreshed with partitions := withWatermarks previous refreshed } := by
  intro partition hpartition
  obtain ⟨fresh, hfresh, rfl⟩ := List.mem_map.mp hpartition
  have hid : fresh.id ∈ previous.partitionIds := by
    rw [hids, Topic.partitionIds, List.mem_toFinset]
    exact List.mem_map_of_mem hfresh
  obtain ⟨kept, hkept⟩ := partitionWith_isSome hid
  obtain ⟨hmem, hsame⟩ := partitionWith_mem hkept
  simp only [hkept]
  rw [← hname, ← hsame]
  exact h kept hmem

/-- Preserved metrics come from the loads they came from before. -/
theorem preserve_measured {shown : List Topic} {refreshed : Topic} {loads : List OffsetLoad}
    (hshown : ∀ topic ∈ shown, Measured loads topic)
    (hfresh : refreshed.recordsState = .loading ∧ refreshed.groupsState = .loading) :
    Measured loads (preserveCompletedMetrics shown refreshed) := by
  rcases preserve_cases shown refreshed with ⟨hsame, -⟩ | ⟨previous, hfound, hids⟩
  · rw [hsame]
    constructor <;> simp [hfresh]
  · obtain ⟨hmem, hname⟩ := topicNamed_name hfound
    have hprevious := hshown previous hmem
    rw [preserve_some hfound hids]
    by_cases hrecords : previous.recordsState = .ready
    · simp only [if_pos hrecords]
      constructor
      · exact fun _ => rfl
      · intro _
        rcases hprevious.records hrecords with hnone | ⟨load, hload, hgives⟩
        · rw [← partitionIds_eq_empty, hids, partitionIds_eq_empty] at hnone
          exact .inl (by simp [withWatermarks, hnone])
        · exact .inr ⟨load, hload, withWatermarks_gives hname hids hgives⟩
    · have hgroups : previous.groupsState ≠ .ready := fun hready => hrecords (hprevious.groups hready)
      simp only [if_neg hrecords, if_neg hgroups]
      constructor <;> simp [hfresh]

/-- Both offsets of every partition of the topic were resolved. -/
def OffsetLoad.Resolves (load : OffsetLoad) (topic : Topic) : Prop :=
  ∀ partition ∈ topic.partitions,
    ∃ low high, load.earliest topic.name partition.id = some low ∧
      load.latest topic.name partition.id = some high

section Loads

variable {load : OffsetLoad} {topic : Topic}

theorem anyUnresolved_iff :
    ((topic.partitions.map fun partition =>
      (partition, load.earliest topic.name partition.id, load.latest topic.name partition.id)).any
        fun (_, low, high) => low.isNone || high.isNone) = true ↔ ¬ load.Resolves topic := by
  rw [← not_iff_not, not_not, Bool.not_eq_true, List.any_eq_false]
  simp [OffsetLoad.Resolves, ← Option.isSome_iff_exists, Option.isSome_iff_ne_none]

theorem apply_unresolved (h : ¬ load.Resolves topic) :
    load.apply topic =
      if topic.recordsState ≠ .ready then { topic with recordsState := .unavailable } else topic := by
  simp only [OffsetLoad.apply]
  rw [if_pos (anyUnresolved_iff.mpr h)]

theorem apply_resolved (h : load.Resolves topic) :
    (load.apply topic).name = topic.name ∧ (load.apply topic).recordsState = .ready ∧
      (load.apply topic).groupsState = topic.groupsState ∧
      (load.apply topic).partitionIds = topic.partitionIds ∧ load.Gives (load.apply topic) := by
  simp only [OffsetLoad.apply]
  rw [if_neg (mt anyUnresolved_iff.mp (not_not.mpr h))]
  refine ⟨rfl, rfl, rfl, ?_, ?_⟩
  · rw [Topic.partitionIds, Topic.partitionIds, List.map_map, List.map_map]
    congr 1
    apply List.map_congr_left
    intro partition hpartition
    obtain ⟨low, high, hlow, hhigh⟩ := h partition hpartition
    simp [hlow, hhigh]
  · intro partition hpartition
    rw [List.map_map] at hpartition
    obtain ⟨unmeasured, hunmeasured, rfl⟩ := List.mem_map.mp hpartition
    obtain ⟨low, high, hlow, hhigh⟩ := h unmeasured hunmeasured
    simp [hlow, hhigh]

theorem apply_enriches (load : OffsetLoad) (topic : Topic) : Enriches topic (load.apply topic) := by
  by_cases h : load.Resolves topic
  · obtain ⟨hname, hrecords, hgroups, hids, -⟩ := apply_resolved h
    exact ⟨⟨fun _ => hrecords, fun hready => hgroups.trans hready⟩, hname, hids⟩
  · rw [apply_unresolved h]
    split_ifs with hready
    · exact ⟨⟨fun h => absurd h hready, id⟩, rfl, rfl⟩
    · exact ⟨.refl topic, rfl, rfl⟩

theorem apply_measured {loads : List OffsetLoad} (h : Measured loads topic) (load : OffsetLoad) :
    Measured (loads ++ [load]) (load.apply topic) := by
  by_cases hresolves : load.Resolves topic
  · obtain ⟨-, hrecords, -, -, hgives⟩ := apply_resolved hresolves
    exact ⟨fun _ => hrecords, fun _ => .inr ⟨load, by simp, hgives⟩⟩
  · rw [apply_unresolved hresolves]
    split_ifs with hready
    · exact ⟨fun hgroups => absurd (h.groups hgroups) hready, nofun⟩
    · exact h.mono (List.subset_append_left _ _)

end Loads

/-- A topic without partitions is ready without a load. -/
theorem setRecordsState_ready {topics : List Topic} (h : noPartitions topics) :
    ∀ enriched ∈ setRecordsState topics .ready, enriched.partitions = [] ∧
      enriched.recordsState = .ready ∧ ∃ topic ∈ topics, Enriches topic enriched := by
  intro enriched henriched
  obtain ⟨topic, htopic, rfl⟩ := List.mem_map.mp henriched
  have hnone : topic.partitions = [] := by
    simpa using List.all_eq_true.mp h topic htopic
  split_ifs with hready
  · exact ⟨hnone, rfl, topic, htopic, ⟨fun _ => rfl, id⟩, rfl, rfl⟩
  · exact ⟨hnone, not_not.mp hready, topic, htopic, .refl topic, rfl, rfl⟩

/-- The loads that `enrich_offsets` has made, after it made this one or none. -/
def loadsAfter (topics : List Topic) (loads : List OffsetLoad) (load : OffsetLoad) :
    List OffsetLoad :=
  if noPartitions topics then loads else loads ++ [load]

theorem enrichOffsets_enriches (topics : List Topic) (load : OffsetLoad) :
    ∀ enriched ∈ enrichOffsets topics load, ∃ topic ∈ topics, Enriches topic enriched := by
  rw [enrichOffsets]
  split_ifs with hnone
  · exact fun enriched henriched => (setRecordsState_ready hnone enriched henriched).2.2
  · intro enriched henriched
    obtain ⟨topic, htopic, rfl⟩ := List.mem_map.mp henriched
    exact ⟨topic, htopic, apply_enriches load topic⟩

theorem enrichOffsets_names (topics : List Topic) (load : OffsetLoad) :
    (enrichOffsets topics load).map (·.name) = topics.map (·.name) := by
  rw [enrichOffsets]
  split_ifs
  · rw [setRecordsState, List.map_map]
    apply List.map_congr_left
    intro topic _
    rw [Function.comp_apply]
    split_ifs <;> rfl
  · rw [List.map_map]
    exact List.map_congr_left fun topic _ => (apply_enriches load topic).name_eq

theorem enrichOffsets_measured {topics : List Topic} {loads : List OffsetLoad}
    (h : ∀ topic ∈ topics, Measured loads topic) (load : OffsetLoad) :
    ∀ enriched ∈ enrichOffsets topics load, Measured (loadsAfter topics loads load) enriched := by
  rw [enrichOffsets, loadsAfter]
  split_ifs with hnone
  · intro enriched henriched
    obtain ⟨hempty, hready, -⟩ := setRecordsState_ready hnone enriched henriched
    exact ⟨fun _ => hready, fun _ => .inl hempty⟩
  · intro enriched henriched
    obtain ⟨topic, htopic, rfl⟩ := List.mem_map.mp henriched
    exact apply_measured (h topic htopic) load

def SameMetrics (before after : Topic) : Prop :=
  ∃ groups, after = { before with groups := groups }

theorem mem_appendGroup {topics : List Topic} {name : Text} {group : Group} {after : Topic}
    (h : after ∈ appendGroup topics name group) : ∃ before ∈ topics, SameMetrics before after := by
  obtain ⟨before, hbefore, rfl⟩ := List.mem_map.mp h
  refine ⟨before, hbefore, ?_⟩
  split_ifs
  · exact ⟨_, rfl⟩
  · exact ⟨before.groups, rfl⟩

/-- Appending groups one after another changes nothing else. -/
theorem foldl_sameMetrics {α : Type} {append : List Topic → α → List Topic} (items : List α)
    (happend : ∀ topics item, ∀ after ∈ append topics item,
      ∃ before ∈ topics, SameMetrics before after)
    (topics : List Topic) :
    ∀ after ∈ items.foldl append topics, ∃ before ∈ topics, SameMetrics before after := by
  induction items generalizing topics with
  | nil => exact fun after hafter => ⟨after, hafter, after.groups, rfl⟩
  | cons item items ih =>
    intro after hafter
    obtain ⟨between, hbetween, groups, rfl⟩ := ih (append topics item) after hafter
    obtain ⟨before, hbefore, groups', rfl⟩ := happend topics item between hbetween
    exact ⟨before, hbefore, groups, rfl⟩

theorem mem_applyGroups {topics : List Topic} {snapshot : GroupSnapshot} {after : Topic}
    (h : after ∈ applyGroups topics snapshot) :
    ∃ topic ∈ topics, after = setGroupsUnavailable topic ∨ SameMetrics (resetGroups topic) after := by
  rw [applyGroups] at h
  split_ifs at h
  · obtain ⟨topic, htopic, rfl⟩ := List.mem_map.mp h
    exact ⟨topic, htopic, .inl rfl⟩
  · obtain ⟨before, hbefore, hsame⟩ := foldl_sameMetrics snapshot.descriptions (fun topics' metadata =>
      foldl_sameMetrics _ (fun topics'' item after hafter => by
        dsimp only at hafter
        split_ifs at hafter
        · exact ⟨after, hafter, after.groups, rfl⟩
        · exact mem_appendGroup hafter) topics') _ after h
    obtain ⟨topic, htopic, rfl⟩ := List.mem_map.mp hbefore
    exact ⟨topic, htopic, .inr hsame⟩

theorem foldl_names {α : Type} {append : List Topic → α → List Topic} (items : List α)
    (happend : ∀ topics item, (append topics item).map (·.name) = topics.map (·.name))
    (topics : List Topic) : (items.foldl append topics).map (·.name) = topics.map (·.name) := by
  induction items generalizing topics with
  | nil => rfl
  | cons item items ih => exact (ih _).trans (happend topics item)

theorem appendGroup_names (topics : List Topic) (name : Text) (group : Group) :
    (appendGroup topics name group).map (·.name) = topics.map (·.name) := by
  rw [appendGroup, List.map_map]
  apply List.map_congr_left
  intro topic _
  rw [Function.comp_apply]
  split_ifs <;> rfl

theorem applyGroups_names (topics : List Topic) (snapshot : GroupSnapshot) :
    (applyGroups topics snapshot).map (·.name) = topics.map (·.name) := by
  rw [applyGroups]
  split_ifs
  · rw [List.map_map]
    apply List.map_congr_left
    intro topic _
    rw [Function.comp_apply, setGroupsUnavailable]
    split_ifs <;> rfl
  · refine (foldl_names _ (fun topics' metadata => foldl_names _ ?_ topics') _).trans ?_
    · intro topics'' item
      dsimp only
      split_ifs
      · rfl
      · exact appendGroup_names _ _ _
    · rw [List.map_map]
      rfl

theorem applyGroups_enriches {topics : List Topic} {loads : List OffsetLoad}
    (h : ∀ topic ∈ topics, Measured loads topic) (snapshot : GroupSnapshot) :
    ∀ enriched ∈ applyGroups topics snapshot,
      Measured loads enriched ∧ ∃ topic ∈ topics, Enriches topic enriched := by
  intro enriched henriched
  obtain ⟨topic, htopic, hcase⟩ := mem_applyGroups henriched
  have hmeasured := h topic htopic
  rcases hcase with rfl | ⟨groups, rfl⟩
  · rw [setGroupsUnavailable]
    split_ifs with hready
    · exact ⟨⟨nofun, hmeasured.records⟩, topic, htopic, ⟨id, fun h => absurd h hready⟩, rfl, rfl⟩
    · exact ⟨hmeasured, topic, htopic, .refl topic, rfl, rfl⟩
  · refine ⟨⟨?_, hmeasured.records⟩, topic, htopic, ⟨id, ?_⟩, rfl, rfl⟩
    · intro hgroups
      change (if topic.recordsState = .ready then MetricState.ready else .unavailable) = .ready at hgroups
      split_ifs at hgroups with hrecords
      exact hrecords
    · intro hgroups
      simp [resetGroups, hmeasured.groups hgroups]

end Kaskade
