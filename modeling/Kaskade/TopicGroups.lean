import Kaskade.Dictionaries
import Kaskade.TopicMetrics

/-!
# Consumer groups of topics

What `apply_groups` makes of a snapshot: each topic holds the groups that committed an offset on
one of its partitions, whatever it held before.
-/

namespace Kaskade

open Python

/-- The committed offset counts on the partition of the topic. -/
structure CommittedOffset.On (committed : CommittedOffset) (topic : Topic) (partition : Partition) :
    Prop where
  topic_eq : committed.topic = topic.name
  partition_mem : partition ∈ topic.partitions
  partition_eq : committed.partition = partition.id
  valid : committed.offset ≠ offsetInvalid

/-- The group has committed an offset on some partition of the topic. -/
def GroupSnapshot.Commits (snapshot : GroupSnapshot) (topic : Topic)
    (metadata : ConsumerGroupDescription) : Prop :=
  ∃ committed ∈ snapshot.offsets metadata.groupId, ∃ partition, committed.On topic partition

def MemberDescription.assigned (topic : Topic) (member : MemberDescription) : List ℤ :=
  (member.assignment.filter (·.1 = topic.name)).map (·.2)

/-- The group as it was described, with the partitions of the topic it committed offsets on and the
members that are assigned some. -/
structure HoldsGroup (snapshot : GroupSnapshot) (topic : Topic)
    (metadata : ConsumerGroupDescription) (group : Group) : Prop where
  id_eq : group.id = metadata.groupId
  coordinator_eq : group.coordinator = metadata.coordinator
  state_eq : group.state = metadata.state.map lowerChr
  partitionAssignor_eq : group.partitionAssignor = metadata.partitionAssignor
  once : (group.partitions.map (·.id)).Nodup
  mem_partitions : ∀ held, held ∈ group.partitions ↔
    ∃ committed ∈ snapshot.offsets metadata.groupId, ∃ partition, committed.On topic partition ∧
      held =
        { id := partition.id, topic := topic.name, group := metadata.groupId
          offset := committed.offset, low := partition.low, high := partition.high }
  members_eq : group.members =
    (metadata.members.filter fun member => member.assigned topic ≠ []).map fun member =>
      { id := member.memberId, clientId := member.clientId, group := metadata.groupId
        host := member.host, instanceId := member.groupInstanceId
        assignment := member.assigned topic }

open Classical in
/-- The topic holds each group of the snapshot that has committed an offset on it once, in the
order of the descriptions; nothing else changed but the state. -/
structure HoldsGroups (snapshot : GroupSnapshot) (before after : Topic) : Prop where
  unchanged : after =
    { before with
      groups := after.groups
      groupsState := if before.recordsState = .ready then .ready else .unavailable }
  groups : List.Forall₂ (HoldsGroup snapshot before)
    (snapshot.descriptions.filter (snapshot.Commits before)) after.groups
  once : (after.groups.map (·.id)).Nodup

/-- The same topic with other groups, in whatever state. -/
def Regrouped (before after : Topic) : Prop :=
  ∃ groups groupsState, after = { before with groups := groups, groupsState := groupsState }

def GroupSnapshot.committedOn (snapshot : GroupSnapshot) (topics : List Topic) (name : Text)
    (metadata : ConsumerGroupDescription) : List CommittedOffset :=
  ((snapshot.offsets metadata.groupId).filter fun committed =>
    committed.offset ≠ offsetInvalid ∧ (topicNamed topics committed.topic).isSome).filter
      (·.topic = name)

def GroupSnapshot.groupOn (snapshot : GroupSnapshot) (topics : List Topic) (name : Text)
    (metadata : ConsumerGroupDescription) : Option Group :=
  let group := mapGroup topics metadata name (snapshot.committedOn topics name metadata)
  if group.partitions = [] then none else some group

/-- What one entry of `committed_by_topic` does to a topic. -/
def appendOn (topics : List Topic) (metadata : ConsumerGroupDescription)
    (entry : Text × List CommittedOffset) (topic : Topic) : Topic :=
  let group := mapGroup topics metadata entry.1 entry.2
  if topic.name = entry.1 ∧ group.partitions ≠ [] then
    { topic with groups := topic.groups ++ [group] }
  else topic

section Loops

variable (topics : List Topic) (snapshot : GroupSnapshot)

theorem appendOn_map (metadata : ConsumerGroupDescription) (entry : Text × List CommittedOffset)
    (enriched : List Topic) :
    (let group := mapGroup topics metadata entry.1 entry.2
      if group.partitions = [] then enriched else appendGroup enriched entry.1 group) =
      enriched.map (appendOn topics metadata entry) := by
  dsimp only
  split_ifs with hnone
  · refine (List.map_id enriched).symm.trans (List.map_congr_left fun topic _ => ?_)
    exact (if_neg fun h => h.2 hnone).symm
  · refine List.map_congr_left fun topic _ => ?_
    rw [appendOn]
    simp only [ne_eq, hnone, not_false_eq_true, and_true]

theorem committedByTopic_filter (name : Text) (metadata : ConsumerGroupDescription) :
    (committedByTopic topics (snapshot.offsets metadata.groupId)).filter (·.1 = name) =
      if snapshot.committedOn topics name metadata = [] then []
      else [(name, snapshot.committedOn topics name metadata)] :=
  Dictionary.grouped_filter CommittedOffset.topic _ name

theorem appendOn_name (metadata : ConsumerGroupDescription) (entry : Text × List CommittedOffset)
    (topic : Topic) : (appendOn topics metadata entry topic).name = topic.name := by
  rw [appendOn]
  split_ifs <;> rfl

theorem foldl_appendOn (metadata : ConsumerGroupDescription) (topic : Topic) :
    (committedByTopic topics (snapshot.offsets metadata.groupId)).foldl
        (fun topic entry => appendOn topics metadata entry topic) topic =
      { topic with
        groups := topic.groups ++ (snapshot.groupOn topics topic.name metadata).toList } := by
  rw [Dictionary.foldl_filter_eq (·.1 = topic.name) (fun topic entry => appendOn topics metadata entry topic)
    (·.name = topic.name) (fun other entry h => (appendOn_name topics metadata entry other).trans h)
    _ _ topic rfl, committedByTopic_filter]
  · rw [GroupSnapshot.groupOn]
    split_ifs with hnone hempty hempty
    · simp
    · simp [hnone, mapGroup, mapGroupPartitions] at hempty
    · simp [appendOn, hempty]
    · simp [appendOn, hempty]
  · intro other entry hname hskip
    rw [appendOn]
    exact if_neg fun h => by simp [← h.1, hname] at hskip

theorem foldl_groupOn (descriptions : List ConsumerGroupDescription) (topic : Topic) :
    descriptions.foldl (fun topic metadata =>
        (committedByTopic topics (snapshot.offsets metadata.groupId)).foldl
          (fun topic entry => appendOn topics metadata entry topic) topic) topic =
      { topic with
        groups := topic.groups ++ descriptions.filterMap (snapshot.groupOn topics topic.name) } := by
  induction descriptions generalizing topic with
  | nil => simp
  | cons metadata descriptions ih =>
    rw [List.foldl_cons, foldl_appendOn, ih]
    cases hgroup : snapshot.groupOn topics topic.name metadata <;> simp [hgroup]

/-- A snapshot without errors gives each topic the groups that committed offsets on it. -/
theorem applyGroups_complete (herrors : snapshot.errors = false) :
    applyGroups topics snapshot = topics.map fun topic =>
      { resetGroups topic with
        groups := snapshot.descriptions.filterMap (snapshot.groupOn topics topic.name) } := by
  rw [applyGroups, herrors, if_neg Bool.false_ne_true]
  trans snapshot.descriptions.foldl
    (fun enriched metadata => enriched.map fun topic =>
      (committedByTopic topics (snapshot.offsets metadata.groupId)).foldl
        (fun topic entry => appendOn topics metadata entry topic) topic)
    (topics.map resetGroups)
  · congr 1
    funext enriched metadata
    rw [← Dictionary.foldl_map_eq]
    congr 1
    funext enriched entry
    exact appendOn_map topics metadata entry enriched
  · rw [Dictionary.foldl_map_eq, List.map_map]
    refine List.map_congr_left fun topic _ => ?_
    rw [Function.comp_apply, foldl_groupOn]
    rfl

end Loops

section Appended

variable {topics : List Topic} {snapshot : GroupSnapshot} {topic : Topic}
  {metadata : ConsumerGroupDescription}

theorem partitionWith_iff {partitions : List Partition} (h : (partitions.map (·.id)).Nodup)
    {id : ℤ} {partition : Partition} :
    partitionWith partitions id = some partition ↔ partition ∈ partitions ∧ partition.id = id := by
  refine ⟨partitionWith_mem, ?_⟩
  rintro ⟨hmem, rfl⟩
  cases hfound : partitionWith partitions partition.id with
  | none => simpa using List.find?_eq_none.mp hfound partition (List.mem_reverse.mpr hmem)
  | some other =>
    obtain ⟨hother, hid⟩ := partitionWith_mem hfound
    rw [List.inj_on_of_nodup_map h hother hmem hid]

theorem mem_committedOn (hnames : (topics.map (·.name)).Nodup) (htopic : topic ∈ topics)
    {committed : CommittedOffset} :
    committed ∈ snapshot.committedOn topics topic.name metadata ↔
      committed ∈ snapshot.offsets metadata.groupId ∧ committed.offset ≠ offsetInvalid ∧
        committed.topic = topic.name := by
  simp only [GroupSnapshot.committedOn, List.mem_filter, decide_eq_true_eq, and_assoc]
  refine and_congr_right fun _ => and_congr_right fun _ => ⟨And.right, fun hname => ⟨?_, hname⟩⟩
  rw [hname, topicNamed_of_mem hnames htopic]
  rfl

theorem mem_groupPartitions (hnames : (topics.map (·.name)).Nodup) (htopic : topic ∈ topics)
    (hids : (topic.partitions.map (·.id)).Nodup) (held : GroupPartition) :
    held ∈ (mapGroup topics metadata topic.name
        (snapshot.committedOn topics topic.name metadata)).partitions ↔
      ∃ committed ∈ snapshot.offsets metadata.groupId, ∃ partition, committed.On topic partition ∧
        held =
          { id := partition.id, topic := topic.name, group := metadata.groupId
            offset := committed.offset, low := partition.low, high := partition.high } := by
  simp only [mapGroup, mapGroupPartitions, List.mem_filterMap, mem_committedOn hnames htopic,
    topicNamed_of_mem hnames htopic, Option.bind_some, Option.map_eq_some_iff,
    partitionWith_iff hids]
  constructor
  · rintro ⟨committed, ⟨hcommitted, hvalid, hname⟩, partition, ⟨hmem, hid⟩, rfl⟩
    exact ⟨committed, hcommitted, partition, ⟨hname, hmem, hid.symm, hvalid⟩, by rw [hid]⟩
  · rintro ⟨committed, hcommitted, partition, hon, rfl⟩
    exact ⟨committed, ⟨hcommitted, hon.valid, hon.topic_eq⟩, partition,
      ⟨hon.partition_mem, hon.partition_eq.symm⟩, by rw [hon.partition_eq]⟩

/-- A group appears on the topic if it has committed an offset on it. -/
theorem groupPartitions_eq_nil (snapshot : GroupSnapshot) (metadata : ConsumerGroupDescription)
    (hnames : (topics.map (·.name)).Nodup) (htopic : topic ∈ topics)
    (hids : (topic.partitions.map (·.id)).Nodup) :
    (mapGroup topics metadata topic.name
        (snapshot.committedOn topics topic.name metadata)).partitions = [] ↔
      ¬ snapshot.Commits topic metadata := by
  rw [List.eq_nil_iff_forall_not_mem]
  simp only [mem_groupPartitions hnames htopic hids, GroupSnapshot.Commits]
  constructor
  · rintro h ⟨committed, hcommitted, partition, hon⟩
    exact h _ ⟨committed, hcommitted, partition, hon, rfl⟩
  · rintro h held ⟨committed, hcommitted, partition, hon, -⟩
    exact h ⟨committed, hcommitted, partition, hon⟩

theorem groupPartitions_nodup (hcommitted : ((snapshot.offsets metadata.groupId).map fun committed =>
      (committed.topic, committed.partition)).Nodup) (name : Text) :
    ((mapGroup topics metadata name (snapshot.committedOn topics name metadata)).partitions.map
      (·.id)).Nodup := by
  have hsub : (snapshot.committedOn topics name metadata).Sublist
      (snapshot.offsets metadata.groupId) :=
    List.filter_sublist.trans List.filter_sublist
  have hkept : ((snapshot.committedOn topics name metadata).map (·.partition)).Nodup := by
    refine (List.nodup_map_iff_inj_on ?_).mpr ?_
    · exact List.Nodup.of_map _ ((hsub.map _).nodup hcommitted)
    · intro c hc d hd hsame
      have hname : c.topic = d.topic := by
        simp only [GroupSnapshot.committedOn, List.mem_filter, decide_eq_true_eq] at hc hd
        exact hc.2.trans hd.2.symm
      exact List.inj_on_of_nodup_map hcommitted (hsub.subset hc) (hsub.subset hd)
        (Prod.ext hname hsame)
  refine List.Nodup.sublist ?_ hkept
  simp only [mapGroup, mapGroupPartitions, List.map_filterMap, Option.map_map]
  apply Dictionary.filterMap_sublist_map
  intro committed _ id hid
  obtain ⟨_, _, rfl⟩ := Option.map_eq_some_iff.mp hid
  rfl

open Classical in
/-- The topic gets the groups that have committed an offset on it. -/
theorem filterMap_groupOn (snapshot : GroupSnapshot) (hnames : (topics.map (·.name)).Nodup)
    (htopic : topic ∈ topics) (hids : (topic.partitions.map (·.id)).Nodup) :
    snapshot.descriptions.filterMap (snapshot.groupOn topics topic.name) =
      (snapshot.descriptions.filter (snapshot.Commits topic)).map fun metadata =>
        mapGroup topics metadata topic.name (snapshot.committedOn topics topic.name metadata) := by
  rw [← List.filterMap_eq_map, List.filterMap_filter]
  apply List.filterMap_congr
  intro metadata _
  have hnone := groupPartitions_eq_nil snapshot metadata hnames htopic hids
  by_cases hcommits : snapshot.Commits topic metadata
  · exact (if_neg fun h => hnone.mp h hcommits).trans (if_pos (decide_eq_true hcommits)).symm
  · exact (if_pos (hnone.mpr hcommits)).trans
      (if_neg fun h => hcommits (of_decide_eq_true h)).symm

theorem mapGroupMembers_eq :
    mapGroupMembers metadata topic.name =
      (metadata.members.filter fun member => member.assigned topic ≠ []).map fun member =>
        { id := member.memberId, clientId := member.clientId, group := metadata.groupId
          host := member.host, instanceId := member.groupInstanceId
          assignment := member.assigned topic } := by
  rw [← List.filterMap_eq_map, List.filterMap_filter]
  apply List.filterMap_congr
  intro member _
  by_cases hnone : member.assigned topic = []
  · exact (if_pos hnone).trans (if_neg fun h => (of_decide_eq_true h : _ ≠ []) hnone).symm
  · exact (if_neg hnone).trans (if_pos (decide_eq_true hnone)).symm

theorem holdsGroup (hnames : (topics.map (·.name)).Nodup) (htopic : topic ∈ topics)
    (hids : (topic.partitions.map (·.id)).Nodup)
    (hcommitted : ((snapshot.offsets metadata.groupId).map fun committed =>
      (committed.topic, committed.partition)).Nodup) :
    HoldsGroup snapshot topic metadata
      (mapGroup topics metadata topic.name (snapshot.committedOn topics topic.name metadata)) where
  id_eq := rfl
  coordinator_eq := rfl
  state_eq := rfl
  partitionAssignor_eq := rfl
  once := groupPartitions_nodup hcommitted topic.name
  mem_partitions := mem_groupPartitions hnames htopic hids
  members_eq := mapGroupMembers_eq

end Appended

def Topic.ungrouped (topic : Topic) : Topic := { topic with groups := [], groupsState := .loading }

theorem Regrouped.ungrouped_eq {before after : Topic} (h : Regrouped before after) :
    after.ungrouped = before.ungrouped := by
  obtain ⟨groups, groupsState, rfl⟩ := h
  rfl

theorem topicNamed_ungrouped (topics : List Topic) (name : Text) :
    topicNamed (topics.map (·.ungrouped)) name = (topicNamed topics name).map (·.ungrouped) :=
  List.find?_map ..

theorem groupOn_ungrouped (topics : List Topic) (snapshot : GroupSnapshot) (name : Text) :
    snapshot.groupOn (topics.map (·.ungrouped)) name = snapshot.groupOn topics name := by
  funext metadata
  simp only [GroupSnapshot.groupOn, GroupSnapshot.committedOn, mapGroup, mapGroupPartitions,
    topicNamed_ungrouped, Option.isSome_map, Option.bind_map]
  rfl

/-- The groups that were held before do not matter. -/
theorem applyGroups_ungrouped (topics : List Topic) {snapshot : GroupSnapshot}
    (herrors : snapshot.errors = false) :
    applyGroups (topics.map (·.ungrouped)) snapshot = applyGroups topics snapshot := by
  rw [applyGroups_complete _ _ herrors, applyGroups_complete _ _ herrors, List.map_map]
  simp only [groupOn_ungrouped]
  rfl

theorem applyGroups_regrouped {topics other : List Topic} (h : List.Forall₂ Regrouped topics other)
    {snapshot : GroupSnapshot} (herrors : snapshot.errors = false) :
    applyGroups other snapshot = applyGroups topics snapshot := by
  have hsame : other.map (·.ungrouped) = topics.map (·.ungrouped) := by
    induction h with
    | nil => rfl
    | cons hfirst _ ih => rw [List.map_cons, List.map_cons, hfirst.ungrouped_eq, ih]
  rw [← applyGroups_ungrouped other herrors, hsame, applyGroups_ungrouped topics herrors]

/-- A snapshot without errors decides which groups are held, one with errors leaves them alone. -/
theorem applyGroups_holds {topics : List Topic} (hnames : (topics.map (·.name)).Nodup)
    (hids : ∀ topic ∈ topics, (topic.partitions.map (·.id)).Nodup) (snapshot : GroupSnapshot) :
    (snapshot.errors = false → (snapshot.descriptions.map (·.groupId)).Nodup →
      (∀ metadata ∈ snapshot.descriptions, ((snapshot.offsets metadata.groupId).map fun committed =>
        (committed.topic, committed.partition)).Nodup) →
      List.Forall₂ (HoldsGroups snapshot) topics (applyGroups topics snapshot) ∧
      (∀ other, List.Forall₂ Regrouped topics other →
        applyGroups other snapshot = applyGroups topics snapshot) ∧
      applyGroups (applyGroups topics snapshot) snapshot = applyGroups topics snapshot) ∧
    (snapshot.errors = true → List.Forall₂ (fun before after =>
      after =
        { before with
          groupsState := if before.groupsState = .ready then .ready else .unavailable })
      topics (applyGroups topics snapshot)) := by
  constructor
  · intro herrors hgroups hcommitted
    have hregrouped : List.Forall₂ Regrouped topics (applyGroups topics snapshot) := by
      rw [applyGroups_complete _ _ herrors, List.forall₂_map_right_iff, List.forall₂_same]
      exact fun topic _ => ⟨_, _, rfl⟩
    refine ⟨?_, fun other hother => applyGroups_regrouped hother herrors,
      applyGroups_regrouped hregrouped herrors⟩
    rw [applyGroups_complete _ _ herrors, List.forall₂_map_right_iff, List.forall₂_same]
    intro topic htopic
    have hkept := filterMap_groupOn snapshot hnames htopic (hids topic htopic)
    classical
    have hholds : List.Forall₂ (HoldsGroup snapshot topic)
        (snapshot.descriptions.filter fun metadata => snapshot.Commits topic metadata)
        (snapshot.descriptions.filterMap (snapshot.groupOn topics topic.name)) := by
      rw [hkept, List.forall₂_map_right_iff, List.forall₂_same]
      intro metadata hmetadata
      exact holdsGroup hnames htopic (hids topic htopic)
        (hcommitted metadata (List.mem_of_mem_filter hmetadata))
    refine ⟨rfl, hholds, ?_⟩
    change ((snapshot.descriptions.filterMap (snapshot.groupOn topics topic.name)).map (·.id)).Nodup
    rw [hkept, List.map_map]
    exact (List.filter_sublist.map _).nodup hgroups
  · intro herrors
    rw [applyGroups, if_pos herrors, List.forall₂_map_right_iff, List.forall₂_same]
    intro topic _
    rw [setGroupsUnavailable]
    by_cases hready : topic.groupsState = .ready
    · rw [if_neg (not_not.mpr hready), if_pos hready, ← hready]
    · rw [if_pos hready, if_neg hready]

def ordersSnapshot : GroupSnapshot where
  descriptions := [
    { groupId := text "billing", partitionAssignor := text "range", state := text "STABLE"
      coordinator := none
      members := [
        { memberId := text "m1", clientId := text "c1", host := text "h1", groupInstanceId := none
          assignment := [(text "orders", 0), (text "audit", 3)] },
        { memberId := text "m2", clientId := text "c2", host := text "h2", groupInstanceId := none
          assignment := [(text "audit", 4)] }] },
    { groupId := text "idle", partitionAssignor := text "range", state := text "EMPTY"
      coordinator := none, members := [] }]
  offsets := fun id =>
    if id = text "billing" then [⟨text "orders", 0, 7⟩, ⟨text "orders", 5, 2⟩, ⟨text "gone", 0, 1⟩]
    else [⟨text "orders", 1, offsetInvalid⟩]

def ordersTopics : List Topic :=
  [{ name := text "orders"
     partitions := [{ id := 0, low := 1, high := 9 }, { id := 1 }], recordsState := .ready }]

theorem applyGroups_holds_orders :
    List.Forall₂ (HoldsGroups ordersSnapshot) ordersTopics (applyGroups ordersTopics ordersSnapshot) :=
  ((@applyGroups_holds ordersTopics (by decide) (by decide) ordersSnapshot).1 rfl
    (by decide) (by decide)).1

example : (applyGroups ordersTopics ordersSnapshot).map (fun topic => topic.groups.map fun group =>
    (group.id, group.members.map (·.assignment), group.partitions.map fun held => (held.id, held.offset))) =
    [[(text "billing", [[0]], [(0, 7)])]] := by
  rfl

end Kaskade
