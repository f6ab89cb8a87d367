import Kaskade.KeyedTables
import Kaskade.MetricRuns
import Mathlib.Data.List.Infix

/-!
# The table of the topic list

What `ListTopics` shows while refreshes replace and enrich its topics, the filter changes and rows
are highlighted: the rows of the visible topics in their order, a selection that is an object of
the topics it has now, and a number for a metric only where the metric was completed.
-/

namespace Kaskade

open Python

def GroupPartition.lagCount (p : GroupPartition) : ℤ :=
  if p.high ≤ 0 then 0
  else if p.offset < 0 then max 0 (p.high - p.low)
  else max 0 (p.high - p.offset)

def Group.lagCount (group : Group) : ℤ := (group.partitions.map (·.lagCount)).sum

def Group.membersCount (group : Group) : ℕ := group.members.length

def Partition.recordsCount (p : Partition) : ℤ := max 0 (p.high - p.low)

namespace Topic

variable (topic : Topic)

def partitionsCount : ℕ := topic.partitions.length

def groupsCount : ℕ := topic.groups.length

def groupMembersCount : ℕ := (topic.groups.map (·.membersCount)).sum

def lag : ℤ := (topic.groups.map (·.lagCount)).sum

def recordsCount : ℤ := (topic.partitions.map (·.recordsCount)).sum

end Topic

structure PartitionReplicas where
  replicas : List ℤ
  isrs : List ℤ

/-- The metadata of a topic, with the brokers of its partitions. -/
structure ListedMetadata extends TopicMetadata where
  brokers : List PartitionReplicas

/-- The brokers of the partitions of a topic: of two topics with the same name the later. -/
def brokersOf (metadata : List ListedMetadata) (name : Text) : List PartitionReplicas :=
  ((metadata.reverse.find? (·.topic = name)).map (·.brokers)).getD []

def replicasCount (brokers : List PartitionReplicas) : ℕ :=
  ((brokers.map (·.replicas.length)).max?).getD 0

def isrsCount (brokers : List PartitionReplicas) : ℕ :=
  ((brokers.map (·.isrs.length)).min?).getD 0

inductive TopicColumn where
  | name
  | partitions
  | replicas
  | isrs
  | groups
  | members
  | records
  | lag
  deriving DecidableEq

/-- `TOPIC_COLUMN_KEYS`, the columns of the table in their order. -/
def topicColumnKeys : List TopicColumn :=
  [.name, .partitions, .replicas, .isrs, .groups, .members, .records, .lag]

def loadingMetric : Text := text "…"

def unavailableMetric : Text := text "—"

def approximation : Text := text "≈"

def metricValue (state : MetricState) (value : Text) : Text :=
  match state with
  | .ready => value
  | .unavailable => unavailableMetric
  | .loading => loadingMetric

def topicRow (metadata : List ListedMetadata) (topic : Topic) : List Text :=
  [topic.name,
    natText topic.partitionsCount,
    natText (replicasCount (brokersOf metadata topic.name)),
    natText (isrsCount (brokersOf metadata topic.name)),
    metricValue topic.groupsState (natText topic.groupsCount),
    metricValue topic.groupsState (natText topic.groupMembersCount),
    metricValue topic.recordsState (approximation ++ intText topic.recordsCount),
    metricValue topic.groupsState (approximation ++ intText topic.lag)]

abbrev TopicRow := KeyedRow Text TopicColumn Text

/-- The topics and the table of `ListTopics`. A topic object is one of the dictionary that a number
of refreshes have replaced, under its name. -/
structure TopicListing where
  table : TopicTable := {}
  metadata : List ListedMetadata := []
  replaced : ℕ := 0
  currentTopic : Option (ℕ × Text) := none
  currentFilter : Option Text := none
  rows : List TopicRow := []
  /-- Whether offsets were applied that the table does not show yet. -/
  unfilled : Bool := false

/-- What happens to the list; wherever the table is filled, with the row of its cursor. -/
inductive ListingEvent where
  | metadata (topicsMetadata : List ListedMetadata) (cursorRow : ℕ)
  | offsetsLoaded (load : OffsetLoad)
  /-- The worker resumes after the load of the offsets. -/
  | resume (cursorRow : ℕ)
  | groupsLoaded (snapshot : GroupSnapshot) (cursorRow : ℕ)
  | start
  | fail
  | finish
  | rowHighlighted (rowKey : Option Text)
  | all (cursorRow : ℕ)
  /-- The filter screen is left, with a text or without. -/
  | filter (result : Option Text) (cursorRow : ℕ)

namespace TopicListing

variable (s : TopicListing)

def visibleTopics : List Topic :=
  s.table.topics.filter fun topic => s.currentFilter.all fun filter => filter <:+: topic.name

/-- `self.topics.get(name)`, as an object. -/
def topicObject (name : Text) : Option (ℕ × Text) :=
  if (topicNamed s.table.topics name).isSome then some (s.replaced, name) else none

/-- `_restore_selection`, for the keys of the visible topics. -/
def restoreSelection (desiredKeys : List Text) (cursorRow : ℕ) : Option (ℕ × Text) :=
  let cursor := (desiredKeys[min cursorRow (desiredKeys.length - 1)]?).bind s.topicObject
  match s.currentTopic with
  | some (_, name) =>
    if (topicNamed s.table.topics name).isSome ∧ name ∈ desiredKeys then s.topicObject name
    else cursor
  | none => cursor

/-- `fill_table`; it fails if a row is missing or is already there. -/
def fillTable (cursorRow : ℕ) : Option TopicListing :=
  (KeyedTable.render topicColumnKeys Topic.name (topicRow s.metadata) s.rows s.visibleTopics).map
    fun rows =>
      { s with
        rows
        currentTopic := s.restoreSelection (s.visibleTopics.map (·.name)) cursorRow
        unfilled := false }

def stage : ListingEvent → Option MetricEvent
  | .metadata topicsMetadata _ => some (.metadata (topicsMetadata.map (·.toTopicMetadata)))
  | .offsetsLoaded load => some (.offsetsLoaded load)
  | .resume _ => some .resume
  | .groupsLoaded snapshot _ => some (.groupsLoaded snapshot)
  | .start => some .start
  | .fail => some .fail
  | .finish => some .finish
  | _ => none

def refreshed (event : ListingEvent) (table : TopicTable) : TopicListing :=
  match event with
  | .metadata topicsMetadata _ =>
    { s with table, metadata := topicsMetadata, replaced := s.replaced + 1 }
  | .offsetsLoaded _ => { s with table, unfilled := true }
  | _ => { s with table }

def fills : ListingEvent → Option ℕ
  | .metadata _ cursorRow | .resume cursorRow | .groupsLoaded _ cursorRow => some cursorRow
  | .all cursorRow | .filter _ cursorRow => some cursorRow
  | _ => none

def change (event : ListingEvent) : Option TopicListing :=
  match event with
  | .rowHighlighted none => some s
  | .rowHighlighted (some rowKey) => some { s with currentTopic := s.topicObject rowKey }
  | .all _ => some { s with currentFilter := none }
  | .filter result _ => some { s with currentFilter := result }
  | _ => (stage event).bind fun metric => (s.table.step metric).map (s.refreshed event)

def step (event : ListingEvent) : Option TopicListing :=
  (s.change event).bind fun changed =>
    match fills event with
    | some cursorRow => changed.fillTable cursorRow
    | none => some changed

variable {s} {t : TopicListing}

def HasColumns (s : TopicListing) : Prop := ∀ row ∈ s.rows, row.cells.map (·.1) = topicColumnKeys

theorem topicColumnKeys_nodup : topicColumnKeys.Nodup := by decide

theorem topicRow_length (metadata : List ListedMetadata) (topic : Topic) :
    (topicRow metadata topic).length = topicColumnKeys.length := rfl

def visibleRows (s : TopicListing) : List TopicRow :=
  KeyedTable.rowsOf topicColumnKeys Topic.name (topicRow s.metadata) s.visibleTopics

theorem visibleTopics_nodup (hdistinct : (s.table.topics.map (·.name)).Nodup) :
    (s.visibleTopics.map (·.name)).Nodup :=
  hdistinct.sublist (List.filter_sublist.map _)

/-- A table is filled without a failure, with the rows of the visible topics. -/
theorem fillTable_eq (hdistinct : (s.table.topics.map (·.name)).Nodup) (hrows : HasColumns s)
    (cursorRow : ℕ) :
    s.fillTable cursorRow = some
      { s with
        rows := s.visibleRows
        currentTopic := s.restoreSelection (s.visibleTopics.map (·.name)) cursorRow
        unfilled := false } := by
  rw [fillTable, KeyedTable.render_eq topicColumnKeys_nodup (topicRow_length s.metadata) hrows
    (visibleTopics_nodup hdistinct)]
  rfl

theorem topicObject_some {name : Text} {object : ℕ × Text} (h : s.topicObject name = some object) :
    object.1 = s.replaced ∧ object.2 = name ∧ (topicNamed s.table.topics object.2).isSome := by
  rw [topicObject] at h
  split_ifs at h with hname
  obtain rfl := Option.some.inj h
  exact ⟨rfl, rfl, hname⟩

theorem topicNamed_isSome {topics : List Topic} {topic : Topic} (h : topic ∈ topics) :
    (topicNamed topics topic.name).isSome = true :=
  List.find?_isSome.mpr ⟨topic, h, by simp⟩

theorem restoreSelection_some {desiredKeys : List Text} {cursorRow : ℕ} {object : ℕ × Text}
    (h : s.restoreSelection desiredKeys cursorRow = some object) :
    object.1 = s.replaced ∧ object.2 ∈ desiredKeys ∧
      (topicNamed s.table.topics object.2).isSome := by
  have hcursor : (desiredKeys[min cursorRow (desiredKeys.length - 1)]?).bind s.topicObject =
      some object → object.1 = s.replaced ∧ object.2 ∈ desiredKeys ∧
        (topicNamed s.table.topics object.2).isSome := by
    intro hobject
    obtain ⟨name, hname, hobject⟩ := Option.bind_eq_some_iff.mp hobject
    obtain ⟨hcurrent, rfl, hsome⟩ := topicObject_some hobject
    exact ⟨hcurrent, List.mem_of_getElem? hname, hsome⟩
  rw [restoreSelection] at h
  cases hselected : s.currentTopic with
  | none => exact hcursor (by simpa [hselected] using h)
  | some selected =>
    simp only [hselected] at h
    split_ifs at h with hkept
    · obtain ⟨hcurrent, hname, hsome⟩ := topicObject_some h
      exact ⟨hcurrent, hname ▸ hkept.2, hsome⟩
    · exact hcursor h

/-- Something is selected whenever something is visible. -/
theorem restoreSelection_isSome {cursorRow : ℕ} (hvisible : s.visibleTopics ≠ []) :
    (s.restoreSelection (s.visibleTopics.map (·.name)) cursorRow).isSome = true := by
  have hobject : ∀ name ∈ s.visibleTopics.map (·.name), (s.topicObject name).isSome = true := by
    intro name hname
    obtain ⟨topic, htopic, rfl⟩ := List.mem_map.mp hname
    rw [topicObject, if_pos (topicNamed_isSome (List.mem_of_mem_filter htopic))]
    rfl
  let desiredKeys := s.visibleTopics.map (·.name)
  have hrow : min cursorRow (desiredKeys.length - 1) < desiredKeys.length := by
    have hpos : 0 < desiredKeys.length := by
      rw [List.length_map]
      exact List.length_pos_iff.mpr hvisible
    omega
  have hcursor : ((desiredKeys[min cursorRow (desiredKeys.length - 1)]?).bind
      s.topicObject).isSome = true := by
    rw [List.getElem?_eq_getElem hrow]
    exact hobject _ (List.getElem_mem hrow)
  rw [restoreSelection]
  cases s.currentTopic with
  | none => exact hcursor
  | some selected =>
    simp only
    split_ifs with hkept
    · exact hobject _ hkept.2
    · exact hcursor

theorem restoreSelection_eq_none {cursorRow : ℕ} :
    s.restoreSelection (s.visibleTopics.map (·.name)) cursorRow = none ↔ s.visibleTopics = [] := by
  constructor
  · intro hnone
    by_contra hvisible
    have hsome : (s.restoreSelection (s.visibleTopics.map (·.name)) cursorRow).isSome = true :=
      restoreSelection_isSome hvisible
    rw [hnone] at hsome
    cases hsome
  · intro hvisible
    apply Option.eq_none_iff_forall_ne_some.mpr
    intro object hobject
    obtain ⟨-, hmem, -⟩ := restoreSelection_some hobject
    simp [hvisible] at hmem

def ShowsMeasured (loads : List OffsetLoad) (row : TopicRow) : Prop :=
  ∃ metadata topic, Measured loads topic ∧
    row = ⟨topic.name, topicColumnKeys.zip (topicRow metadata topic)⟩

structure Listed (s : TopicListing) : Prop where
  sound : s.table.Sound
  columns : HasColumns s
  keys : s.rows.map (·.key) = s.visibleTopics.map (·.name)
  cells : s.unfilled = false → s.rows = s.visibleRows
  measured : ∀ row ∈ s.rows, ShowsMeasured s.table.loads row
  selected : ∀ object ∈ s.currentTopic,
    object.1 = s.replaced ∧ (topicNamed s.table.topics object.2).isSome

/-- Filling the table needs nothing of what it showed before but its columns. -/
theorem listed_fillTable (hsound : s.table.Sound) (hcolumns : HasColumns s) (cursorRow : ℕ) :
    ∃ t, s.fillTable cursorRow = some t ∧ Listed t ∧
      (t.currentTopic = none ↔ t.visibleTopics = []) := by
  refine ⟨_, fillTable_eq hsound.distinct hcolumns cursorRow, ?_, ?_⟩
  · constructor
    · exact hsound
    · exact KeyedTable.rowsOf_columns (topicRow_length s.metadata) s.visibleTopics
    · exact KeyedTable.rowsOf_keys s.visibleTopics
    · exact fun _ => rfl
    · intro row hrow
      obtain ⟨topic, htopic, rfl⟩ := List.mem_map.mp hrow
      exact ⟨s.metadata, topic, hsound.measured topic (List.mem_of_mem_filter htopic), rfl⟩
    · intro object hobject
      obtain ⟨hcurrent, -, hsome⟩ := restoreSelection_some hobject
      exact ⟨hcurrent, hsome⟩
  · exact restoreSelection_eq_none

theorem topicNamed_isSome_iff {topics : List Topic} {name : Text} :
    (topicNamed topics name).isSome = true ↔ name ∈ topics.map (·.name) := by
  simp [topicNamed, List.find?_isSome]

/-- A change of the metrics alone keeps the keys of the table and the selection. -/
theorem listed_metrics {table : TopicTable} {unfilled : Bool} (h : Listed s) (hsound : table.Sound)
    (hnames : table.topics.map (·.name) = s.table.topics.map (·.name))
    (hloads : s.table.loads ⊆ table.loads)
    (hcells : unfilled = false → s.unfilled = false ∧ table.topics = s.table.topics) :
    Listed { s with table, unfilled } := by
  have hvisible : ∀ topics : List Topic,
      (topics.filter fun topic => s.currentFilter.all fun filter => filter <:+: topic.name).map
          (·.name) =
        (topics.map (·.name)).filter fun name => s.currentFilter.all fun filter => filter <:+: name := by
    intro topics
    rw [List.filter_map]
    rfl
  constructor
  · exact hsound
  · exact h.columns
  · refine h.keys.trans ?_
    simp only [visibleTopics]
    rw [hvisible, hvisible, hnames]
  · intro hfilled
    obtain ⟨hbefore, htopics⟩ := hcells hfilled
    refine (h.cells hbefore).trans ?_
    simp only [visibleRows, visibleTopics, htopics]
  · intro row hrow
    obtain ⟨metadata, topic, hmeasured, hshown⟩ := h.measured row hrow
    exact ⟨metadata, topic, hmeasured.mono hloads, hshown⟩
  · intro object hobject
    obtain ⟨hcurrent, hsome⟩ := h.selected object hobject
    refine ⟨hcurrent, ?_⟩
    rw [topicNamed_isSome_iff] at hsome ⊢
    exact hnames ▸ hsome

theorem loads_subset_loadsAfter (topics : List Topic) (loads : List OffsetLoad) (load : OffsetLoad) :
    loads ⊆ loadsAfter topics loads load := by
  rw [loadsAfter]
  split_ifs
  · exact List.Subset.refl loads
  · exact List.subset_append_left loads [load]

/-- A stage of a refresh that the table does not show yet. -/
theorem listed_unfilled {event : ListingEvent} {metric : MetricEvent} {table : TopicTable}
    (h : Listed s) (hfills : fills event = none) (hstage : stage event = some metric)
    (hstep : s.table.step metric = some table) : Listed (s.refreshed event table) := by
  have hsound := (TopicTable.step_effect hstep).sound h.sound
  cases event with
  | offsetsLoaded load =>
    obtain rfl := Option.some.inj hstage
    simp only [TopicTable.step] at hstep
    split_ifs at hstep
    obtain rfl := Option.some.inj hstep
    apply listed_metrics h hsound
    · exact enrichOffsets_names s.table.topics load
    · exact loads_subset_loadsAfter s.table.topics s.table.loads load
    · intro hshown
      cases hshown
  | start | fail | finish =>
    obtain rfl := Option.some.inj hstage
    simp only [TopicTable.step] at hstep
    split_ifs at hstep
    obtain rfl := Option.some.inj hstep
    exact listed_metrics h hsound rfl (List.Subset.refl _) fun hshown => ⟨hshown, rfl⟩
  | metadata | resume | groupsLoaded => cases hfills
  | rowHighlighted | all | filter => cases hstage

/-- An event is a stage of a refresh, or it changes the selection or the filter. -/
theorem change_cases {event : ListingEvent} {changed : TopicListing}
    (hchange : s.change event = some changed) :
    (∃ metric table, stage event = some metric ∧ s.table.step metric = some table ∧
        changed = s.refreshed event table) ∨
      (∃ rowKey, event = .rowHighlighted rowKey ∧
        changed = { s with currentTopic := (rowKey.map s.topicObject).getD s.currentTopic }) ∨
      ∃ filter, (fills event).isSome ∧ changed = { s with currentFilter := filter } := by
  cases event with
  | rowHighlighted rowKey =>
    cases rowKey with
    | none => exact .inr (.inl ⟨none, rfl, (Option.some.inj hchange).symm⟩)
    | some rowKey => exact .inr (.inl ⟨some rowKey, rfl, (Option.some.inj hchange).symm⟩)
  | all => exact .inr (.inr ⟨none, rfl, (Option.some.inj hchange).symm⟩)
  | filter result => exact .inr (.inr ⟨result, rfl, (Option.some.inj hchange).symm⟩)
  | _ =>
    left
    simp only [change, stage, Option.bind_some, Option.map_eq_some_iff] at hchange
    obtain ⟨table, hstep, rfl⟩ := hchange
    exact ⟨_, table, rfl, hstep, rfl⟩

theorem refreshed_table (event : ListingEvent) (table : TopicTable) :
    (s.refreshed event table).table = table ∧ (s.refreshed event table).rows = s.rows := by
  cases event <;> exact ⟨rfl, rfl⟩

/-- What an event changes leaves the table ready to be filled. -/
theorem change_sound {event : ListingEvent} {changed : TopicListing} (h : Listed s)
    (hchange : s.change event = some changed) : changed.table.Sound ∧ HasColumns changed := by
  obtain ⟨metric, table, -, hstep, rfl⟩ | ⟨rowKey, -, rfl⟩ | ⟨filter, -, rfl⟩ := change_cases hchange
  · obtain ⟨htable, hrows⟩ := refreshed_table (s := s) event table
    rw [HasColumns, htable, hrows]
    exact ⟨(TopicTable.step_effect hstep).sound h.sound, h.columns⟩
  · exact ⟨h.sound, h.columns⟩
  · exact ⟨h.sound, h.columns⟩

theorem listed_change {event : ListingEvent} {changed : TopicListing} (h : Listed s)
    (hfills : fills event = none) (hchange : s.change event = some changed) : Listed changed := by
  obtain ⟨metric, table, hstage, hstep, rfl⟩ | ⟨rowKey, rfl, rfl⟩ | ⟨filter, hsome, -⟩ :=
    change_cases hchange
  · exact listed_unfilled h hfills hstage hstep
  · refine ⟨h.sound, h.columns, h.keys, h.cells, h.measured, fun object hobject => ?_⟩
    cases rowKey with
    | none => exact h.selected object hobject
    | some rowKey =>
      obtain ⟨hcurrent, -, hknown⟩ := topicObject_some hobject
      exact ⟨hcurrent, hknown⟩
  · rw [hfills] at hsome
    cases hsome

/-- An event that can happen does not fail, and leaves the list as it should be. -/
theorem listed_step {event : ListingEvent} {changed : TopicListing} (h : Listed s)
    (hchange : s.change event = some changed) :
    ∃ t, s.step event = some t ∧ Listed t ∧
      ((fills event).isSome → (t.currentTopic = none ↔ t.visibleTopics = [])) := by
  obtain ⟨hsound, hcolumns⟩ := change_sound h hchange
  cases hfills : fills event with
  | none =>
    refine ⟨changed, by simp [step, hchange, hfills], listed_change h hfills hchange, ?_⟩
    intro hsome
    cases hsome
  | some cursorRow =>
    obtain ⟨t, hfill, hlisted, hselection⟩ := listed_fillTable hsound hcolumns cursorRow
    exact ⟨t, by simp [step, hchange, hfills, hfill], hlisted, fun _ => hselection⟩

/-- A run of a list that shows nothing yet. -/
abbrev ListingRun :=
  Run (fun s event t => TopicListing.step s event = some t) ({} : TopicListing)

theorem listed_of_run {events : List ListingEvent} (hrun : ListingRun events s) : Listed s := by
  refine hrun.invariant (fun s event t hs hstep => ?_) ?_
  · obtain ⟨changed, hchange, -⟩ := Option.bind_eq_some_iff.mp hstep
    obtain ⟨t', ht', hlisted, -⟩ := listed_step hs hchange
    rw [ht'] at hstep
    exact Option.some.inj hstep ▸ hlisted
  · constructor
    · exact TopicTable.sound_of_run .nil
    · intro row hrow
      cases hrow
    · rfl
    · exact fun _ => rfl
    · intro row hrow
      cases hrow
    · intro object hobject
      cases hobject

/-- After every run, the rows are those of the visible topics in their order, with their current
cells unless offsets have just been applied; the selected topic is an object of the topics that the
list has now; and no event makes the table fail, or leaves nothing selected while it is filled with
something. -/
theorem rows_follow_topics {events : List ListingEvent} (hrun : ListingRun events s) :
    s.rows.map (·.key) = s.visibleTopics.map (·.name) ∧
    (s.unfilled = false → s.rows = s.visibleRows) ∧
    (∀ object ∈ s.currentTopic,
      object.1 = s.replaced ∧ (topicNamed s.table.topics object.2).isSome) ∧
    ∀ event changed, s.change event = some changed →
      ∃ t, s.step event = some t ∧
        ((fills event).isSome → (t.currentTopic = none ↔ t.visibleTopics = [])) := by
  have h := listed_of_run hrun
  refine ⟨h.keys, h.cells, h.selected, fun event changed hchange => ?_⟩
  obtain ⟨t, hstep, -, hselection⟩ := listed_step h hchange
  exact ⟨t, hstep, hselection⟩

/-- A filter that is set while the groups of two topics are still loading. -/
theorem orders_listed :
    ∃ s, ListingRun [.start, .metadata [⟨⟨text "orders", [0]⟩, []⟩, ⟨⟨text "users", []⟩, []⟩] 0,
        .rowHighlighted (some (text "users")), .filter (some (text "or")) 1] s ∧
      s.rows.map (·.key) = [text "orders"] ∧
      ∀ object ∈ s.currentTopic,
        object.1 = s.replaced ∧ (topicNamed s.table.topics object.2).isSome := by
  have hrun : ListingRun [.start, .metadata [⟨⟨text "orders", [0]⟩, []⟩, ⟨⟨text "users", []⟩, []⟩] 0,
      .rowHighlighted (some (text "users")), .filter (some (text "or")) 1] _ := .of_foldlM rfl
  exact ⟨_, hrun, rfl, (rows_follow_topics hrun).2.2.1⟩

def IsNumber (cell : Option Text) : Prop :=
  cell.any fun value => value ≠ loadingMetric && value ≠ unavailableMetric

theorem ready_of_isNumber {state : MetricState} {value : Text}
    (h : IsNumber (some (metricValue state value))) : state = .ready := by
  cases state with
  | ready => rfl
  | loading => simp [IsNumber, metricValue] at h
  | unavailable => simp [IsNumber, metricValue] at h

theorem isNumber_approximation (count : Text) : IsNumber (some (approximation ++ count)) := by
  have hhead : ∀ c : Char, c ≠ '≈' → approximation ++ count ≠ [chr c] := by
    intro c hc heq
    exact hc (chr_injective (List.cons.inj heq).1.symm)
  have hloading := hhead '…' (by decide)
  have hunavailable := hhead '—' (by decide)
  simpa [IsNumber] using ⟨hloading, hunavailable⟩

/-- Every number of records that the table ever shows is the sum over watermarks of one load, and
the numbers of a topic's groups, members and lag are shown only beside its number of records. -/
theorem numbers_from_one_load {events : List ListingEvent} (hrun : ListingRun events s) :
    ∀ row ∈ s.rows,
      (∀ column ∈ [TopicColumn.groups, .members, .lag],
        IsNumber (row.cell column) → IsNumber (row.cell .records)) ∧
      (IsNumber (row.cell .records) → ∃ partitions : List Partition,
        row.cell .partitions = some (natText partitions.length) ∧
        row.cell .records =
          some (approximation ++ intText (partitions.map (·.recordsCount)).sum) ∧
        (partitions = [] ∨ ∃ load ∈ s.table.loads, ∀ partition ∈ partitions,
          load.earliest row.key partition.id = some partition.low ∧
            load.latest row.key partition.id = some partition.high)) := by
  intro row hrow
  obtain ⟨metadata, topic, hmeasured, rfl⟩ := (listed_of_run hrun).measured row hrow
  have hready : topic.recordsState = .ready → metricValue topic.recordsState
      (approximation ++ intText topic.recordsCount) = approximation ++ intText topic.recordsCount := by
    intro hstate
    rw [hstate]
    rfl
  constructor
  · intro column hcolumn hnumber
    have hgroups : topic.groupsState = .ready := by
      simp only [List.mem_cons, List.not_mem_nil, or_false] at hcolumn
      obtain rfl | rfl | rfl := hcolumn <;> exact ready_of_isNumber hnumber
    have hshown := isNumber_approximation (intText topic.recordsCount)
    rw [← hready (hmeasured.groups hgroups)] at hshown
    exact hshown
  · intro hnumber
    have hrecords : topic.recordsState = .ready := ready_of_isNumber hnumber
    exact ⟨topic.partitions, rfl, congrArg some (hready hrecords), hmeasured.records hrecords⟩

/-- Two partitions with four records each. -/
theorem orders_numbers :
    let events := [ListingEvent.start, .metadata [⟨⟨text "orders", [0, 1]⟩, []⟩] 0,
      .offsetsLoaded ⟨fun _ _ => some 3, fun _ _ => some 7⟩, .resume 0]
    ∃ s, ListingRun events s ∧ (∃ row ∈ s.rows, row.cell .records = some (text "≈8")) ∧
      ∀ row ∈ s.rows, ∀ column ∈ [TopicColumn.groups, .members, .lag],
        IsNumber (row.cell column) → IsNumber (row.cell .records) := by
  intro events
  have hrun : ListingRun events _ := .of_foldlM rfl
  exact ⟨_, hrun, ⟨_, List.mem_cons_self, rfl⟩,
    fun row hrow => (numbers_from_one_load hrun row hrow).1⟩

end TopicListing

end Kaskade
