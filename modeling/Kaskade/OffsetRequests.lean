import Kaskade.GroupLoading
import Kaskade.SemaphoreGathers

/-!
# Requests for the offsets of groups

`_load_group_offsets` as it runs: a task for each group, of which so many at a time ask the broker
for the offsets of their group. Whatever order the tasks run in and the broker answers in, the
stage comes to what it comes to when the groups are asked one after another.
-/

namespace Kaskade

open Python

def groupOffsetConcurrency : ℕ := 16

/-- The tasks of `_load_single_group_offsets`, by the position of their group. -/
abbrev OffsetRequests : Type := Gather RaisedError (Text × List CommittedResult × Option RaisedError)

namespace OffsetRequests

def created (groupIds : List Text) : OffsetRequests := .start groupOffsetConcurrency groupIds.length

variable (client : GroupClient) (groupIds : List Text)

def requestedOffsets :
    List (Except RaisedError (Text × List CommittedResult × Option RaisedError)) :=
  groupIds.map (loadSingleGroupOffsets client)

/-- A task runs on, or the broker answers its request. -/
def next (s : OffsetRequests) (event : GatherEvent) : Option OffsetRequests :=
  Gather.step (requestedOffsets client groupIds) s event

def Step (s : OffsetRequests) (event : GatherEvent) (t : OffsetRequests) : Prop :=
  next client groupIds s event = some t

/-- `_load_group_offsets`, once `gather` has returned or raised. -/
def loaded (s : OffsetRequests) : Option (Except RaisedError (Stage (Text × List CommittedResult))) :=
  s.outcome.map (·.map (·.foldl Stage.addOffsets {}))

variable {client groupIds}

theorem loadGroupOffsets_returned {results : List (Text × List CommittedResult × Option RaisedError)}
    (h : requestedOffsets client groupIds = results.map .ok) :
    loadGroupOffsets client groupIds = .ok (results.foldl Stage.addOffsets {}) := by
  have hmap : groupIds.mapM (loadSingleGroupOffsets client) = .ok results := by
    rw [requestedOffsets] at h
    induction groupIds generalizing results with
    | nil =>
      cases results with
      | nil => rfl
      | cons result results => cases h
    | cons groupId groupIds ih =>
      cases results with
      | nil => cases h
      | cons result results =>
        obtain ⟨hresult, hresults⟩ := List.cons.inj h
        rw [List.mapM_cons, hresult, ih hresults]
        rfl
  rw [loadGroupOffsets, hmap]
  rfl

theorem loadGroupOffsets_raised {groupId : Text} (hmem : groupId ∈ groupIds) {e : RaisedError}
    (h : loadSingleGroupOffsets client groupId = .error e) :
    ∃ first, loadGroupOffsets client groupIds = .error first := by
  have hmap : ∃ first, groupIds.mapM (loadSingleGroupOffsets client) = .error first := by
    induction groupIds with
    | nil => cases hmem
    | cons other groupIds ih =>
      rw [List.mapM_cons]
      cases hother : loadSingleGroupOffsets client other with
      | error first => exact ⟨first, rfl⟩
      | ok result =>
        have hlater : groupId ∈ groupIds := by
          refine (List.mem_cons.mp hmem).resolve_left fun hsame => ?_
          rw [← hsame, h] at hother
          cases hother
        obtain ⟨first, hfirst⟩ := ih hlater
        rw [hfirst]
        exact ⟨first, rfl⟩
  obtain ⟨first, hfirst⟩ := hmap
  rw [loadGroupOffsets, hfirst]
  exact ⟨first, rfl⟩

/-- The failures that the tasks do not catch are those that are not expected. -/
theorem loadSingleGroupOffsets_raised {groupId : Text} {e : RaisedError}
    (h : loadSingleGroupOffsets client groupId = .error e) : e.expected = false := by
  rw [loadSingleGroupOffsets] at h
  split at h
  · split_ifs at h with hexpected
    rw [← Except.error.inj h]
    exact eq_false_of_ne_true hexpected
  · cases h

variable {events : List GatherEvent} {s : OffsetRequests}

theorem run_gather (hrun : Run (Step client groupIds) (created groupIds) events s) :
    Run (Gather.Step (requestedOffsets client groupIds))
      (.start groupOffsetConcurrency (requestedOffsets client groupIds).length) events s := by
  rw [requestedOffsets, List.length_map]
  exact hrun

/-- In every order of the tasks and of the answers: at most sixteen requests are under way, no
group is asked twice, and the stage returns what it returns when the groups are asked one after
another. It only raises what one of its tasks does not catch, and then it raises in that order too. -/
theorem loads_in_any_order (hrun : Run (Step client groupIds) (created groupIds) events s) :
    s.calling ≤ 16 ∧ s.sent.Nodup ∧
      (∀ stage, loaded s = some (.ok stage) → loadGroupOffsets client groupIds = .ok stage) ∧
      (∀ e, loaded s = some (.error e) →
        (∃ groupId ∈ groupIds, loadSingleGroupOffsets client groupId = .error e) ∧
          e.expected = false ∧ ∃ first, loadGroupOffsets client groupIds = .error first) := by
  have hgather := run_gather hrun
  refine ⟨Gather.calling_le hgather, (Gather.bounded_run hgather).nodup_sent, ?_, ?_⟩
  · intro stage hloaded
    obtain ⟨result, hresult, hstage⟩ := Option.map_eq_some_iff.mp hloaded
    rcases Gather.outcome_run hgather hresult with ⟨e, rfl, -⟩ | ⟨values, rfl, hvalues⟩
    · cases hstage
    · rw [← Except.ok.inj hstage]
      exact loadGroupOffsets_returned hvalues
  · intro e hloaded
    obtain ⟨result, hresult, hstage⟩ := Option.map_eq_some_iff.mp hloaded
    rcases Gather.outcome_run hgather hresult with ⟨raised, rfl, hraised⟩ | ⟨values, rfl, -⟩
    · obtain ⟨groupId, hmem, hgroup⟩ := List.mem_map.mp hraised
      rw [Except.error.inj hstage] at hgroup
      exact ⟨⟨groupId, hmem, hgroup⟩, loadSingleGroupOffsets_raised hgroup,
        loadGroupOffsets_raised hmem hgroup⟩
    · cases hstage

/-- A client that may read the offsets of every group but the group `audit`. -/
def billingClient : GroupClient where
  listConsumerGroups := .ok ⟨none, none⟩
  describeConsumerGroups _ := .ok []
  listConsumerGroupOffsets groupId :=
    if groupId = text "audit" then .error (KafkaError.raised ⟨groupAuthorizationFailed, []⟩)
    else .ok (some [⟨⟨text "orders", 0, 7⟩, none⟩])

/-- Groups with a letter for a name, and the group `audit`. -/
def manyGroups : List Text := (text "abcdefghijklmno").map (fun letter => [letter]) ++ [text "audit", text "p"]

def started : List GatherEvent := (List.range 17).map .enter

/-- The answer for `audit` lets the last task ask, and the other answers come backwards. -/
def answeredBackwards : List GatherEvent :=
  started ++ [.answer 15, .resume 16, .answer 16] ++ ((List.range 15).map .answer).reverse

theorem answeredBackwards_loads :
    loadGroupOffsets billingClient manyGroups =
      .ok { found := (text "abcdefghijklmnop").map
              fun letter => ([letter], [⟨⟨text "orders", 0, 7⟩, none⟩]),
            failures := [(text "audit", KafkaError.raised ⟨groupAuthorizationFailed, []⟩)] } := by
  obtain ⟨s, hrun, hloaded⟩ : ∃ s, Run (Step billingClient manyGroups) (created manyGroups)
      answeredBackwards s ∧ loaded s = some (.ok _) := ⟨_, .of_foldlM rfl, rfl⟩
  exact (loads_in_any_order hrun).2.2.1 _ hloaded

/-- No order of the tasks and of the answers keeps the stage from returning or raising: a run has at
most three steps for each group, and can go on until there is an outcome. -/
theorem loads_at_last (hrun : Run (Step client groupIds) (created groupIds) events s) :
    events.length ≤ 3 * groupIds.length ∧
      ∃ later t, Run (Step client groupIds) s later t ∧ (loaded t).isSome := by
  have hgather := run_gather hrun
  have hlength := Gather.length_run hgather
  rw [requestedOffsets, List.length_map] at hlength
  obtain ⟨later, t, hlater, houtcome⟩ := Gather.exists_outcome (by decide) hgather
  refine ⟨by omega, later, t, hlater, ?_⟩
  rw [loaded, Option.isSome_map]
  exact houtcome

theorem started_loads_at_last :
    ∃ s, Run (Step billingClient manyGroups) (created manyGroups) started s ∧ loaded s = none ∧
      ∃ later t, Run (Step billingClient manyGroups) s later t ∧ (loaded t).isSome := by
  obtain ⟨s, hrun, hloaded⟩ : ∃ s, Run (Step billingClient manyGroups) (created manyGroups) started s ∧
      loaded s = none := ⟨_, .of_foldlM rfl, rfl⟩
  exact ⟨s, hrun, hloaded, (loads_at_last hrun).2⟩

end OffsetRequests

end Kaskade
