import Kaskade.RefreshGenerations
import Kaskade.TopicMetrics

/-!
# Metrics over refreshes

The worker of a refresh replaces the topics of the table by those of the metadata, and two tasks
enrich them while they are shown. Each of the three stages may fail, in whole or in part, and the
worker may be cancelled at any of its awaits. Whatever is marked as ready was completed, and stays
so for as long as the topic keeps its partitions.
-/

namespace Kaskade

open Python

/-- The topics of the table, the await of the worker of the refresh in progress, and whether its
task for the offsets is unfinished; with the topics shown before the last metadata and the loads
of offsets that were applied. -/
structure TopicTable where
  topics : List Topic := []
  worker : Option RefreshStage := none
  offsetsTask : Bool := false
  shownBefore : List Topic := []
  loads : List OffsetLoad := []

inductive MetricEvent where
  | start
  | metadata (topicsMetadata : List TopicMetadata)
  /-- The task of `enrich_offsets` ends, after a load that may have resolved any offsets. -/
  | offsetsLoaded (load : OffsetLoad)
  /-- The worker resumes after the end of that task. -/
  | resume
  | groupsLoaded (snapshot : GroupSnapshot)
  /-- What the worker awaits raises, the worker is cancelled there, or its generation is stale. -/
  | fail
  /-- The worker has cancelled its tasks and completes the refresh. -/
  | finish

namespace TopicTable

/-- `self.topics = refreshed_topics`, after `_preserve_completed_metrics`. -/
def showMetadata (s : TopicTable) (topicsMetadata : List TopicMetadata) : TopicTable :=
  { s with
    topics := (mapTopics topicsMetadata).map (preserveCompletedMetrics s.topics)
    shownBefore := s.topics
    worker := some .offsets
    offsetsTask := true }

def showOffsets (s : TopicTable) (load : OffsetLoad) : TopicTable :=
  { s with
    topics := enrichOffsets s.topics load
    loads := loadsAfter s.topics s.loads load
    offsetsTask := false }

def showGroups (s : TopicTable) (snapshot : GroupSnapshot) : TopicTable :=
  { s with topics := applyGroups s.topics snapshot, worker := some .closing }

def step (s : TopicTable) : MetricEvent → Option TopicTable
  | .start => if s.worker = none then some { s with worker := some .metadata } else none
  | .metadata topicsMetadata =>
    if s.worker = some .metadata then some (s.showMetadata topicsMetadata) else none
  | .offsetsLoaded load => if s.offsetsTask then some (s.showOffsets load) else none
  | .resume =>
    if s.worker = some .offsets ∧ s.offsetsTask = false then some { s with worker := some .groups }
    else none
  | .groupsLoaded snapshot =>
    if s.worker = some .groups then some (s.showGroups snapshot) else none
  | .fail => if s.worker.isSome then some { s with worker := some .closing } else none
  | .finish =>
    if s.worker = some .closing then some { s with worker := none, offsetsTask := false } else none

def Step (s : TopicTable) (event : MetricEvent) (t : TopicTable) : Prop := s.step event = some t

inductive Effect (s t : TopicTable) : Prop where
  | silent : t.topics = s.topics → t.shownBefore = s.shownBefore → t.loads = s.loads → Effect s t
  | metadata (topicsMetadata : List TopicMetadata) :
      t.topics = (mapTopics topicsMetadata).map (preserveCompletedMetrics s.topics) →
      t.shownBefore = s.topics → t.loads = s.loads → Effect s t
  | offsets (load : OffsetLoad) :
      t.topics = enrichOffsets s.topics load → t.shownBefore = s.shownBefore →
      t.loads = loadsAfter s.topics s.loads load → Effect s t
  | groups (snapshot : GroupSnapshot) :
      t.topics = applyGroups s.topics snapshot → t.shownBefore = s.shownBefore →
      t.loads = s.loads → Effect s t

theorem step_effect {s t : TopicTable} {event : MetricEvent} (h : s.Step event t) : Effect s t := by
  rw [Step] at h
  cases event with
  | metadata topicsMetadata =>
    simp only [step] at h
    split_ifs at h
    exact Option.some.inj h ▸ .metadata topicsMetadata rfl rfl rfl
  | offsetsLoaded load =>
    simp only [step] at h
    split_ifs at h
    exact Option.some.inj h ▸ .offsets load rfl rfl rfl
  | groupsLoaded snapshot =>
    simp only [step] at h
    split_ifs at h
    exact Option.some.inj h ▸ .groups snapshot rfl rfl rfl
  | _ =>
    simp only [step] at h
    split_ifs at h
    exact Option.some.inj h ▸ .silent rfl rfl rfl

/-- All topics of a table are measured, and keep what was ready before the last metadata. -/
structure Sound (s : TopicTable) : Prop where
  distinct : (s.topics.map (·.name)).Nodup
  measured : ∀ topic ∈ s.topics, Measured s.loads topic
  kept : ∀ topic ∈ s.topics, ∀ before ∈ s.shownBefore, before.name = topic.name →
    before.partitionIds = topic.partitionIds → Keeps before topic

variable {s t : TopicTable}

/-- Enriched topics keep what their former selves kept. -/
theorem Sound.enriched (hs : s.Sound)
    (henriches : ∀ after ∈ t.topics, ∃ topic ∈ s.topics, Enriches topic after)
    (hbefore : t.shownBefore = s.shownBefore) :
    ∀ after ∈ t.topics, ∀ before ∈ t.shownBefore, before.name = after.name →
      before.partitionIds = after.partitionIds → Keeps before after := by
  intro after hafter before hmem hname hids
  obtain ⟨topic, htopic, henriched⟩ := henriches after hafter
  rw [hbefore] at hmem
  refine (hs.kept topic htopic before hmem ?_ ?_).trans henriched.toKeeps
  · rw [hname, henriched.name_eq]
  · rw [hids, henriched.partitionIds_eq]

theorem Effect.enriches (h : Effect s t) (hs : s.Sound) :
    (∀ after ∈ t.topics, ∃ topic ∈ s.topics, Enriches topic after) ∨
      ∃ topicsMetadata, t.topics =
        (mapTopics topicsMetadata).map (preserveCompletedMetrics s.topics) := by
  cases h with
  | silent htopics _ _ =>
    rw [htopics]
    exact .inl fun topic htopic => ⟨topic, htopic, .refl topic, rfl, rfl⟩
  | metadata topicsMetadata htopics _ _ => exact .inr ⟨topicsMetadata, htopics⟩
  | offsets load htopics _ _ =>
    rw [htopics]
    exact .inl (enrichOffsets_enriches s.topics load)
  | groups snapshot htopics _ _ =>
    rw [htopics]
    exact .inl fun after hafter => (applyGroups_enriches hs.measured snapshot after hafter).2

/-- Whatever happens, a topic that keeps its name and its partitions keeps what was ready. -/
theorem Effect.keeps (h : Effect s t) (hs : s.Sound) :
    ∀ after ∈ t.topics, ∀ before ∈ s.topics, before.name = after.name →
      before.partitionIds = after.partitionIds → Keeps before after := by
  intro after hafter before hbefore hname hids
  rcases h.enriches hs with henriches | ⟨topicsMetadata, htopics⟩
  · obtain ⟨topic, htopic, henriched⟩ := henriches after hafter
    have hsame : before = topic :=
      List.inj_on_of_nodup_map hs.distinct hbefore htopic (hname.trans henriched.name_eq)
    exact hsame ▸ henriched.toKeeps
  · rw [htopics] at hafter
    obtain ⟨refreshed, hrefreshed, rfl⟩ := List.mem_map.mp hafter
    rw [preserve_name] at hname
    rw [preserve_partitionIds] at hids
    exact preserve_keeps (hname ▸ topicNamed_of_mem hs.distinct hbefore) hids

theorem Effect.sound (h : Effect s t) (hs : s.Sound) : t.Sound := by
  have hkeeps := h.keeps hs
  have henriches := h.enriches hs
  cases h with
  | silent htopics hbefore hloads =>
    constructor
    · exact htopics ▸ hs.distinct
    · rw [htopics, hloads]
      exact hs.measured
    · rw [htopics, hbefore]
      exact hs.kept
  | metadata topicsMetadata htopics hbefore hloads =>
    constructor
    · have hnames : t.topics.map (·.name) = (mapTopics topicsMetadata).map (·.name) := by
        rw [htopics, List.map_map]
        exact List.map_congr_left fun refreshed _ => preserve_name s.topics refreshed
      rw [hnames]
      exact mapTopics_nodup topicsMetadata
    · rw [htopics, hloads]
      intro topic htopic
      obtain ⟨refreshed, hrefreshed, rfl⟩ := List.mem_map.mp htopic
      exact preserve_measured hs.measured (mapTopics_loading topicsMetadata refreshed hrefreshed)
    · rw [hbefore]
      exact hkeeps
  | offsets load htopics hbefore hloads =>
    constructor
    · rw [htopics, enrichOffsets_names]
      exact hs.distinct
    · rw [htopics, hloads]
      exact enrichOffsets_measured hs.measured load
    · exact hs.enriched (htopics ▸ enrichOffsets_enriches s.topics load) hbefore
  | groups snapshot htopics hbefore hloads =>
    have happlied := applyGroups_enriches hs.measured snapshot
    constructor
    · rw [htopics, applyGroups_names]
      exact hs.distinct
    · rw [htopics, hloads]
      exact fun topic htopic => (happlied topic htopic).1
    · exact hs.enriched (htopics ▸ fun topic htopic => (happlied topic htopic).2) hbefore

/-- A run of the refreshes of a table that shows nothing yet. -/
abbrev MetricRun := Run Step ({} : TopicTable)

theorem sound_of_run {events : List MetricEvent} (hrun : MetricRun events s) : s.Sound := by
  refine hrun.invariant (fun _ _ _ hs hstep => (step_effect hstep).sound hs) ?_
  constructor <;> simp

/-- In every state of the table, ready groups come with ready records, ready records come from
one load, and a topic with the partitions it had before the refresh, or before the last event,
has lost nothing that was ready. -/
theorem metrics_sound {events : List MetricEvent} (hrun : MetricRun events s) :
    (∀ topic ∈ s.topics, topic.groupsState = .ready → topic.recordsState = .ready) ∧
    (∀ topic ∈ s.topics, topic.recordsState = .ready →
      topic.partitions = [] ∨ ∃ load ∈ s.loads, load.Gives topic) ∧
    (∀ topic ∈ s.topics, ∀ before ∈ s.shownBefore, before.name = topic.name →
      before.partitionIds = topic.partitionIds → Keeps before topic) ∧
    (∀ event t, s.Step event t → ∀ after ∈ t.topics, ∀ before ∈ s.topics, before.name = after.name →
      before.partitionIds = after.partitionIds → Keeps before after) := by
  have hs := sound_of_run hrun
  refine ⟨fun topic htopic => (hs.measured topic htopic).groups,
    fun topic htopic => (hs.measured topic htopic).records, hs.kept, ?_⟩
  exact fun event t hstep => (step_effect hstep).keeps hs

/-- One topic with two partitions, whose offsets load once and then fail for one of them. -/
theorem orders_stay_ready :
    let metadata := MetricEvent.metadata [⟨text "orders", [0, 1]⟩]
    ∃ s, MetricRun [.start, metadata, .offsetsLoaded ⟨fun _ _ => some 3, fun _ _ => some 7⟩, .resume,
        .groupsLoaded {}, .finish, .start, metadata,
        .offsetsLoaded ⟨fun _ id => if id = 0 then some 4 else none, fun _ _ => some 9⟩] s ∧
      (∃ topic ∈ s.topics, topic.recordsState = .ready ∧ topic.groupsState = .ready ∧
        topic.partitions = [⟨0, 3, 7⟩, ⟨1, 3, 7⟩]) ∧
      (∀ topic ∈ s.topics, topic.recordsState = .ready →
        topic.partitions = [] ∨ ∃ load ∈ s.loads, load.Gives topic) := by
  intro metadata
  have hrun : MetricRun [.start, metadata, .offsetsLoaded ⟨fun _ _ => some 3, fun _ _ => some 7⟩,
      .resume, .groupsLoaded {}, .finish, .start, metadata,
      .offsetsLoaded ⟨fun _ id => if id = 0 then some 4 else none, fun _ _ => some 9⟩] _ :=
    .of_foldlM rfl
  exact ⟨_, hrun, ⟨_, List.mem_cons_self, rfl, rfl, rfl⟩, (metrics_sound hrun).2.1⟩

end TopicTable

end Kaskade
