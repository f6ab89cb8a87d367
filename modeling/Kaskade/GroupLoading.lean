import Kaskade.ConsumerRecords
import Kaskade.Dictionaries
import Kaskade.TopicMetrics

/-!
# Loading consumer groups

`TopicService.load_groups`: the groups are listed, then described and asked for their committed
offsets independently of each other. A group that the principal may not read is hidden as a whole;
what else fails in a stage is an error of the snapshot.
-/

namespace Kaskade

open Python

def groupAuthorizationFailed : ℤ := 30

inductive ExceptionArg where
  | kafkaError (error : KafkaError)
  | text (message : Text)

structure RaisedError where
  cls : ExceptionClass
  args : List ExceptionArg

/-- `isinstance(error, cls)`. -/
def RaisedError.isInstance (error : RaisedError) (cls : ExceptionClass) : Bool :=
  error.cls.mro.any (· = cls)

/-- `KafkaException(error)`. -/
def KafkaError.raised (error : KafkaError) : RaisedError := ⟨.kafkaException, [.kafkaError error]⟩

/-- Whether `ADMIN_EXCEPTIONS` has the class of the error. -/
def RaisedError.expected (error : RaisedError) : Bool :=
  error.isInstance .kafkaException || error.isInstance .valueError

def RaisedError.isGroupAuthorizationError (error : RaisedError) : Bool :=
  if error.isInstance .kafkaException then
    match error.args with
    | .kafkaError kafkaError :: _ => kafkaError.code = groupAuthorizationFailed
    | _ => false
  else false

/-- A partition in the result of a group, with the error it was answered with. -/
structure CommittedResult extends CommittedOffset where
  error : Option KafkaError

structure GroupListing where
  valid : Option (List Text)
  errors : Option (List RaisedError)

/-- What the admin client answers. A request whose future fails and one that is rejected before it
is sent are not told apart where the code catches both. -/
structure GroupClient where
  listConsumerGroups : Except RaisedError GroupListing
  /-- The futures by group ID. -/
  describeConsumerGroups :
    List Text → Except RaisedError (List (Text × Except RaisedError ConsumerGroupDescription))
  listConsumerGroupOffsets : Text → Except RaisedError (Option (List CommittedResult))

def listGroupIds (client : GroupClient) : Except RaisedError (List Text × List RaisedError) :=
  match client.listConsumerGroups with
  | .error error => if error.expected then .ok ([], [error]) else .error error
  | .ok listing => .ok (listing.valid.getD [], listing.errors.getD [])

def resolveFuture {α : Type} (future : Except RaisedError α) :
    Except RaisedError (Option α × Option RaisedError) :=
  match future with
  | .ok value => .ok (some value, none)
  | .error error => if error.expected then .ok (none, some error) else .error error

/-- What one stage found: the results and the failures by group ID. -/
structure Stage (α : Type) where
  found : List α := []
  failures : List (Text × RaisedError) := []

/-- The body of the loop of `_load_group_descriptions`. -/
def Stage.addDescription (stage : Stage ConsumerGroupDescription)
    (result : Text × Option ConsumerGroupDescription × Option RaisedError) :
    Stage ConsumerGroupDescription :=
  match result with
  | (groupId, _, some error) =>
    { stage with failures := Dictionary.setItem stage.failures groupId error }
  | (_, some description, none) => { stage with found := stage.found ++ [description] }
  | (_, none, none) => stage

/-- `_load_group_descriptions`; of the futures that raise something else the first is raised. -/
def loadGroupDescriptions (client : GroupClient) (groupIds : List Text) :
    Except RaisedError (Stage ConsumerGroupDescription) := do
  let futures ← client.describeConsumerGroups groupIds
  let results ← futures.mapM fun (_, future) => resolveFuture future
  return ((futures.map Prod.fst).zip results).foldl Stage.addDescription {}

def firstPartitionError (partitions : List CommittedResult) : Option RaisedError :=
  partitions.findSome? fun partition => partition.error.map KafkaError.raised

def loadSingleGroupOffsets (client : GroupClient) (groupId : Text) :
    Except RaisedError (Text × List CommittedResult × Option RaisedError) :=
  match client.listConsumerGroupOffsets groupId with
  | .error error => if error.expected then .ok (groupId, [], some error) else .error error
  | .ok result =>
    let topicPartitions := result.getD []
    let error := firstPartitionError topicPartitions
    .ok (groupId, if error.isSome then [] else topicPartitions, error)

/-- The body of the loop of `_load_group_offsets`. -/
def Stage.addOffsets (stage : Stage (Text × List CommittedResult))
    (result : Text × List CommittedResult × Option RaisedError) :
    Stage (Text × List CommittedResult) :=
  match result with
  | (groupId, _, some error) =>
    { stage with failures := Dictionary.setItem stage.failures groupId error }
  | (groupId, topicPartitions, none) =>
    { stage with found := Dictionary.setItem stage.found groupId topicPartitions }

def loadGroupOffsets (client : GroupClient) (groupIds : List Text) :
    Except RaisedError (Stage (Text × List CommittedResult)) := do
  let results ← groupIds.mapM (loadSingleGroupOffsets client)
  return results.foldl Stage.addOffsets {}

def unauthorizedGroupIds (failures : List (List (Text × RaisedError))) : List Text :=
  (failures.flatMap fun stage => stage.filter (·.2.isGroupAuthorizationError)).map Prod.fst

def groupErrors (failures : List (Text × RaisedError)) : List RaisedError :=
  (failures.filter (!·.2.isGroupAuthorizationError)).map Prod.snd

/-- The `GroupSnapshot` that was loaded. -/
structure LoadedGroups where
  descriptions : List ConsumerGroupDescription := []
  offsets : List (Text × List CommittedResult) := []
  errors : List RaisedError := []

def loadGroups (client : GroupClient) : Except RaisedError LoadedGroups := do
  let (groupIds, listErrors) ← listGroupIds client
  if groupIds = [] then return { errors := listErrors }
  let descriptions ← loadGroupDescriptions client groupIds
  let offsets ← loadGroupOffsets client groupIds
  let hidden := unauthorizedGroupIds [descriptions.failures, offsets.failures]
  return {
    descriptions := descriptions.found.filter fun item => !hidden.contains item.groupId
    offsets := offsets.found.filter fun (groupId, _) => !hidden.contains groupId
    errors := listErrors ++ groupErrors descriptions.failures ++ groupErrors offsets.failures }

/-- The snapshot as it is applied to topics, with `offsets_for`. -/
def LoadedGroups.snapshot (loaded : LoadedGroups) : GroupSnapshot where
  descriptions := loaded.descriptions
  offsets groupId := ((loaded.offsets.lookup groupId).getD []).map (·.toCommittedOffset)
  errors := !loaded.errors.isEmpty

def failureOf {α : Type} (outcome : Except RaisedError α) : Option RaisedError :=
  match outcome with
  | .ok _ => none
  | .error error => some error

/-- The outcome of the offsets stage: the first of the errors that the partitions have fails the
group as a `KafkaException`. -/
def offsetsOutcome (client : GroupClient) (groupId : Text) :
    Except RaisedError (List CommittedResult) :=
  match client.listConsumerGroupOffsets groupId with
  | .error error => .error error
  | .ok result =>
    match (result.getD []).filterMap (·.error) with
    | [] => .ok (result.getD [])
    | error :: _ => .error ⟨.kafkaException, [.kafkaError error]⟩

theorem firstPartitionError_eq (partitions : List CommittedResult) :
    firstPartitionError partitions =
      (partitions.filterMap (·.error)).head?.map fun error =>
        ⟨.kafkaException, [.kafkaError error]⟩ := by
  induction partitions with
  | nil => rfl
  | cons partition partitions ih =>
    rw [firstPartitionError, List.findSome?_cons, List.filterMap_cons]
    cases partition.error with
    | none => exact ih
    | some error => rfl

/-- What the broker answers about a group that the principal may not read. -/
structure RaisedError.Refusal (error : RaisedError) : Prop where
  kafkaException : ExceptionClass.kafkaException ∈ error.cls.mro
  code : ∃ kafkaError, error.args.head? = some (.kafkaError kafkaError) ∧ kafkaError.code = 30

theorem RaisedError.isGroupAuthorizationError_iff (error : RaisedError) :
    error.isGroupAuthorizationError = true ↔ error.Refusal := by
  have hinstance : error.isInstance .kafkaException = true ↔
      ExceptionClass.kafkaException ∈ error.cls.mro := by simp [RaisedError.isInstance]
  rw [isGroupAuthorizationError]
  split_ifs with h
  · constructor
    · intro hcode
      split at hcode
      · rename_i kafkaError rest hargs
        exact ⟨hinstance.mp h, kafkaError, by rw [hargs]; rfl, of_decide_eq_true hcode⟩
      · cases hcode
    · rintro ⟨-, kafkaError, hhead, hcode⟩
      obtain ⟨rest, hargs⟩ := List.head?_eq_some_iff.mp hhead
      rw [hargs]
      exact decide_eq_true hcode
  · exact ⟨nofun, fun hrefusal => absurd (hinstance.mpr hrefusal.kafkaException) h⟩

instance : DecidablePred RaisedError.Refusal := fun error =>
  decidable_of_iff _ error.isGroupAuthorizationError_iff

theorem RaisedError.isGroupAuthorizationError_eq (error : RaisedError) :
    error.isGroupAuthorizationError = decide error.Refusal := by
  rw [Bool.eq_iff_iff, decide_eq_true_iff, isGroupAuthorizationError_iff]

def refused {α : Type} (outcome : Except RaisedError α) : Bool :=
  (failureOf outcome).any fun error => decide error.Refusal

def otherFailure {α : Type} (outcome : Except RaisedError α) : Option RaisedError :=
  (failureOf outcome).filter fun error => ¬ error.Refusal

section Stages

variable {client : GroupClient} {groupIds : List Text}
  {describe : Text → Except RaisedError ConsumerGroupDescription}

def failuresOf {α : Type} (outcome : Text → Except RaisedError α) (groupIds : List Text) :
    List (Text × RaisedError) :=
  groupIds.filterMap fun groupId => (failureOf (outcome groupId)).map (groupId, ·)

theorem mem_failuresOf {α : Type} {outcome : Text → Except RaisedError α} {groupIds : List Text}
    {groupId : Text} {error : RaisedError} :
    (groupId, error) ∈ failuresOf outcome groupIds ↔
      groupId ∈ groupIds ∧ failureOf (outcome groupId) = some error := by
  simp only [failuresOf, List.mem_filterMap, Option.map_eq_some_iff, Prod.mk.injEq]
  constructor
  · rintro ⟨_, hmem, _, herror, rfl, rfl⟩
    exact ⟨hmem, herror⟩
  · rintro ⟨hmem, herror⟩
    exact ⟨groupId, hmem, error, herror, rfl, rfl⟩

theorem groupErrors_failuresOf {α : Type} (outcome : Text → Except RaisedError α)
    (groupIds : List Text) :
    groupErrors (failuresOf outcome groupIds) =
      groupIds.filterMap fun groupId => otherFailure (outcome groupId) := by
  rw [groupErrors, failuresOf, List.filter_filterMap, List.map_filterMap]
  apply List.filterMap_congr
  intro groupId _
  rw [otherFailure]
  cases failureOf (outcome groupId) with
  | none => rfl
  | some error =>
    rw [Option.map_some, Option.filter_some, Option.filter_some,
      RaisedError.isGroupAuthorizationError_eq]
    by_cases hrefused : error.Refusal <;> simp [hrefused]

theorem mem_unauthorizedGroupIds {α β : Type} (outcome : Text → Except RaisedError α)
    (outcome' : Text → Except RaisedError β) (groupIds : List Text) (groupId : Text) :
    groupId ∈ unauthorizedGroupIds [failuresOf outcome groupIds, failuresOf outcome' groupIds] ↔
      groupId ∈ groupIds ∧ (refused (outcome groupId) || refused (outcome' groupId)) := by
  have hstage : ∀ {γ : Type} (outcome : Text → Except RaisedError γ),
      (∃ error, (groupId, error) ∈ failuresOf outcome groupIds ∧ error.isGroupAuthorizationError) ↔
        groupId ∈ groupIds ∧ refused (outcome groupId) := by
    intro γ outcome
    simp only [mem_failuresOf, refused, Option.any_eq_true, and_assoc, exists_and_left,
      RaisedError.isGroupAuthorizationError_eq]
  rw [Bool.or_eq_true, and_or_left, ← hstage, ← hstage]
  simp only [unauthorizedGroupIds, List.flatMap_cons, List.flatMap_nil, List.append_nil,
    List.mem_map, List.mem_append, List.mem_filter]
  constructor
  · rintro ⟨⟨_, error⟩, hmem, rfl⟩
    exact hmem.imp (fun h => ⟨error, h⟩) fun h => ⟨error, h⟩
  · rintro (⟨error, h⟩ | ⟨error, h⟩)
    · exact ⟨(groupId, error), .inl h, rfl⟩
    · exact ⟨(groupId, error), .inr h, rfl⟩

/-- A call on each group that raises for none of them. -/
theorem mapM_ok {α β : Type} {f : α → Except RaisedError β} {g : α → β} {items : List α}
    (h : ∀ item ∈ items, f item = .ok (g item)) : items.mapM f = .ok (items.map g) := by
  induction items with
  | nil => rfl
  | cons item items ih =>
    rw [List.mapM_cons, h item List.mem_cons_self,
      ih fun other hother => h other (List.mem_cons_of_mem _ hother)]
    rfl

theorem failuresOf_append {α : Type} (outcome : Text → Except RaisedError α)
    (before after : List Text) :
    failuresOf outcome (before ++ after) = failuresOf outcome before ++ failuresOf outcome after :=
  List.filterMap_append

theorem notMem_failuresOf {α : Type} {outcome : Text → Except RaisedError α} {groupId : Text}
    (h : groupId ∉ groupIds) : groupId ∉ (failuresOf outcome groupIds).map Prod.fst := by
  intro hmem
  obtain ⟨⟨_, error⟩, herror, rfl⟩ := List.mem_map.mp hmem
  exact h (mem_failuresOf.mp herror).1

theorem addDescription_new {stage : Stage ConsumerGroupDescription} {groupId : Text}
    (hnew : groupId ∉ stage.failures.map Prod.fst) :
    stage.addDescription (groupId, (describe groupId).toOption, failureOf (describe groupId)) =
      ⟨stage.found ++ (describe groupId).toOption.toList,
        stage.failures ++ failuresOf describe [groupId]⟩ := by
  cases hdescribe : describe groupId with
  | ok description =>
    simp [Stage.addDescription, failuresOf, failureOf, hdescribe, Except.toOption]
  | error error =>
    simp [Stage.addDescription, Dictionary.setItem_new hnew, failuresOf, failureOf, hdescribe,
      Except.toOption]

theorem foldl_addDescription (hdistinct : groupIds.Nodup) :
    (groupIds.map fun groupId =>
        (groupId, (describe groupId).toOption, failureOf (describe groupId))).foldl
      Stage.addDescription {} =
      ⟨groupIds.filterMap fun groupId => (describe groupId).toOption, failuresOf describe groupIds⟩ := by
  induction groupIds using List.reverseRecOn with
  | nil => rfl
  | append_singleton before groupId ih =>
    rw [← List.concat_eq_append, List.nodup_concat] at hdistinct
    rw [List.map_append, List.foldl_append, ih hdistinct.2, List.filterMap_append, failuresOf_append]
    refine (addDescription_new (notMem_failuresOf hdistinct.1)).trans ?_
    rw [List.filterMap_cons, List.filterMap_nil]
    cases (describe groupId).toOption <;> rfl

def foundOffsets (client : GroupClient) (groupIds : List Text) : List (Text × List CommittedResult) :=
  groupIds.filterMap fun groupId =>
    (offsetsOutcome client groupId).toOption.map (groupId, ·)

theorem mem_foundOffsets {groupId : Text} {partitions : List CommittedResult} :
    (groupId, partitions) ∈ foundOffsets client groupIds ↔
      groupId ∈ groupIds ∧ (offsetsOutcome client groupId).toOption = some partitions := by
  simp only [foundOffsets, List.mem_filterMap, Option.map_eq_some_iff, Prod.mk.injEq]
  constructor
  · rintro ⟨_, hmem, _, hfound, rfl, rfl⟩
    exact ⟨hmem, hfound⟩
  · rintro ⟨hmem, hfound⟩
    exact ⟨groupId, hmem, partitions, hfound, rfl, rfl⟩

theorem notMem_foundOffsets {groupId : Text} (h : groupId ∉ groupIds) :
    groupId ∉ (foundOffsets client groupIds).map Prod.fst := by
  intro hmem
  obtain ⟨⟨_, partitions⟩, hfound, rfl⟩ := List.mem_map.mp hmem
  exact h (mem_foundOffsets.mp hfound).1

theorem addOffsets_new {stage : Stage (Text × List CommittedResult)} {groupId : Text}
    (hnew : groupId ∉ stage.failures.map Prod.fst) (hfound : groupId ∉ stage.found.map Prod.fst) :
    stage.addOffsets
        (groupId, (offsetsOutcome client groupId).toOption.getD [],
          failureOf (offsetsOutcome client groupId)) =
      ⟨stage.found ++ foundOffsets client [groupId],
        stage.failures ++ failuresOf (offsetsOutcome client) [groupId]⟩ := by
  cases houtcome : offsetsOutcome client groupId with
  | ok partitions =>
    simp [Stage.addOffsets, Dictionary.setItem_new hfound, foundOffsets, failuresOf, failureOf,
      houtcome, Except.toOption]
  | error error =>
    simp [Stage.addOffsets, Dictionary.setItem_new hnew, foundOffsets, failuresOf, failureOf,
      houtcome, Except.toOption]

theorem foldl_addOffsets (hdistinct : groupIds.Nodup) :
    (groupIds.map fun groupId =>
        (groupId, (offsetsOutcome client groupId).toOption.getD [],
          failureOf (offsetsOutcome client groupId))).foldl Stage.addOffsets {} =
      ⟨foundOffsets client groupIds, failuresOf (offsetsOutcome client) groupIds⟩ := by
  induction groupIds using List.reverseRecOn with
  | nil => rfl
  | append_singleton before groupId ih =>
    rw [← List.concat_eq_append, List.nodup_concat] at hdistinct
    rw [List.map_append, List.foldl_append, ih hdistinct.2, failuresOf_append]
    refine (addOffsets_new (notMem_failuresOf hdistinct.1) (notMem_foundOffsets hdistinct.1)).trans ?_
    rw [foundOffsets, foundOffsets, foundOffsets, List.filterMap_append]

/-- The client answers the description request with a future for each group, and only fails with
the errors that are expected of it. -/
structure GroupClient.Answers (client : GroupClient) (groupIds : List Text)
    (listErrors : List RaisedError)
    (describe : Text → Except RaisedError ConsumerGroupDescription) : Prop where
  listed : listGroupIds client = .ok (groupIds, listErrors)
  describes : client.describeConsumerGroups groupIds =
    .ok (groupIds.map fun groupId => (groupId, describe groupId))
  groupId_eq : ∀ groupId ∈ groupIds, ∀ description,
    describe groupId = .ok description → description.groupId = groupId
  expected : ∀ groupId ∈ groupIds, ∀ error,
    describe groupId = .error error ∨ client.listConsumerGroupOffsets groupId = .error error →
      error.expected

theorem resolveFuture_expected {α : Type} {future : Except RaisedError α}
    (h : ∀ error, future = .error error → error.expected) :
    resolveFuture future = .ok (future.toOption, failureOf future) := by
  cases future with
  | ok value => rfl
  | error error => exact if_pos (h error rfl)

theorem loadSingleGroupOffsets_expected {groupId : Text}
    (h : ∀ error, client.listConsumerGroupOffsets groupId = .error error → error.expected) :
    loadSingleGroupOffsets client groupId =
      .ok (groupId, (offsetsOutcome client groupId).toOption.getD [],
        failureOf (offsetsOutcome client groupId)) := by
  rw [loadSingleGroupOffsets, offsetsOutcome]
  cases hresult : client.listConsumerGroupOffsets groupId with
  | error error => exact if_pos (h error hresult)
  | ok result =>
    dsimp only
    rw [firstPartitionError_eq]
    cases (result.getD []).filterMap (·.error) <;> rfl

variable {listErrors : List RaisedError}

theorem loadGroupDescriptions_eq (h : client.Answers groupIds listErrors describe)
    (hdistinct : groupIds.Nodup) :
    loadGroupDescriptions client groupIds =
      .ok ⟨groupIds.filterMap fun groupId => (describe groupId).toOption,
        failuresOf describe groupIds⟩ := by
  have hresults : (groupIds.map fun groupId => (groupId, describe groupId)).mapM
      (fun (_, future) => resolveFuture future) =
      .ok (groupIds.map fun groupId => ((describe groupId).toOption, failureOf (describe groupId))) := by
    rw [mapM_ok (g := fun item => (item.2.toOption, failureOf item.2)), List.map_map]
    · rfl
    · intro item hitem
      obtain ⟨groupId, hmem, rfl⟩ := List.mem_map.mp hitem
      exact resolveFuture_expected fun error herror => h.expected groupId hmem error (.inl herror)
  rw [← foldl_addDescription hdistinct, loadGroupDescriptions, h.describes]
  simp only [bind, Except.bind, hresults]
  rw [List.map_map, List.zip_map']
  rfl

theorem loadGroupOffsets_eq (h : client.Answers groupIds listErrors describe)
    (hdistinct : groupIds.Nodup) :
    loadGroupOffsets client groupIds =
      .ok ⟨foundOffsets client groupIds, failuresOf (offsetsOutcome client) groupIds⟩ := by
  rw [← foldl_addOffsets hdistinct, loadGroupOffsets, mapM_ok fun groupId hmem =>
    loadSingleGroupOffsets_expected fun error herror => h.expected groupId hmem error (.inr herror)]
  rfl

end Stages

def GroupClient.hides (client : GroupClient)
    (describe : Text → Except RaisedError ConsumerGroupDescription) (groupId : Text) : Bool :=
  refused (describe groupId) || refused (offsetsOutcome client groupId)

/-- The parts of the snapshot are what the stages found of the groups that are not hidden, and the
errors everything else that failed. -/
structure LoadedGroups.Exact (loaded : LoadedGroups) (client : GroupClient) (groupIds : List Text)
    (listErrors : List RaisedError)
    (describe : Text → Except RaisedError ConsumerGroupDescription) : Prop where
  descriptions_eq : loaded.descriptions =
    (groupIds.filter (!client.hides describe ·)).filterMap fun groupId => (describe groupId).toOption
  offsets_eq : loaded.offsets =
    (groupIds.filter (!client.hides describe ·)).filterMap fun groupId =>
      (offsetsOutcome client groupId).toOption.map (groupId, ·)
  errors_eq : loaded.errors =
    listErrors ++ (groupIds.filterMap fun groupId => otherFailure (describe groupId)) ++
      groupIds.filterMap fun groupId => otherFailure (offsetsOutcome client groupId)

def LoadedGroups.Describes (loaded : LoadedGroups) (groupId : Text) : Prop :=
  ∃ description ∈ loaded.descriptions, description.groupId = groupId

def LoadedGroups.HasOffsets (loaded : LoadedGroups) (groupId : Text) : Prop :=
  ∃ partitions, (groupId, partitions) ∈ loaded.offsets

section Load

variable {client : GroupClient} {groupIds : List Text} {listErrors : List RaisedError}
  {describe : Text → Except RaisedError ConsumerGroupDescription}

theorem contains_hidden {groupId : Text} (hmem : groupId ∈ groupIds) :
    (unauthorizedGroupIds [failuresOf describe groupIds,
      failuresOf (offsetsOutcome client) groupIds]).contains groupId =
      client.hides describe groupId := by
  rw [Bool.eq_iff_iff, List.contains_iff_mem, mem_unauthorizedGroupIds]
  exact and_iff_right hmem

theorem filter_descriptions (h : client.Answers groupIds listErrors describe) :
    ((groupIds.filterMap fun groupId => (describe groupId).toOption).filter fun item =>
      !(unauthorizedGroupIds [failuresOf describe groupIds,
        failuresOf (offsetsOutcome client) groupIds]).contains item.groupId) =
      (groupIds.filter (!client.hides describe ·)).filterMap fun groupId =>
        (describe groupId).toOption := by
  rw [List.filter_filterMap, List.filterMap_filter]
  apply List.filterMap_congr
  intro groupId hmem
  cases hdescribe : describe groupId with
  | error error => exact (ite_self none).symm
  | ok description =>
    have hid := h.groupId_eq groupId hmem description hdescribe
    simp only [Except.toOption, Option.filter_some, hid, contains_hidden hmem]

theorem filter_offsets :
    ((foundOffsets client groupIds).filter fun (groupId, _) =>
      !(unauthorizedGroupIds [failuresOf describe groupIds,
        failuresOf (offsetsOutcome client) groupIds]).contains groupId) =
      (groupIds.filter (!client.hides describe ·)).filterMap fun groupId =>
        (offsetsOutcome client groupId).toOption.map (groupId, ·) := by
  rw [foundOffsets, List.filter_filterMap, List.filterMap_filter]
  apply List.filterMap_congr
  intro groupId hmem
  cases hoffsets : offsetsOutcome client groupId with
  | error error => exact (ite_self none).symm
  | ok partitions =>
    simp only [Except.toOption, Option.map_some, Option.filter_some, contains_hidden hmem]

theorem loadGroups_eq (h : client.Answers groupIds listErrors describe) (hdistinct : groupIds.Nodup) :
    ∃ loaded, loadGroups client = .ok loaded ∧ loaded.Exact client groupIds listErrors describe := by
  rw [loadGroups, h.listed]
  simp only [bind, Except.bind]
  split_ifs with hnone
  · exact ⟨_, rfl, by rw [hnone]; rfl, by rw [hnone]; rfl, by rw [hnone]; simp⟩
  · rw [loadGroupDescriptions_eq h hdistinct, loadGroupOffsets_eq h hdistinct]
    refine ⟨_, rfl, filter_descriptions h, filter_offsets, ?_⟩
    rw [groupErrors_failuresOf, groupErrors_failuresOf]

/-- A stage that neither refused nor failed on the group has read it. -/
theorem toOption_of_read {α : Type} {outcome : Except RaisedError α} (hrefused : refused outcome = false)
    (hother : otherFailure outcome = none) : ∃ value, outcome.toOption = some value := by
  cases outcome with
  | ok value => exact ⟨value, rfl⟩
  | error error =>
    rw [refused, failureOf, Option.any_some, decide_eq_false_iff_not] at hrefused
    rw [otherFailure, failureOf, Option.filter_some, if_pos (decide_eq_true hrefused)] at hother
    cases hother

theorem ok_of_toOption {α : Type} {outcome : Except RaisedError α} {value : α}
    (h : outcome.toOption = some value) : outcome = .ok value := by
  cases outcome with
  | ok other => exact congrArg Except.ok (Option.some.inj h)
  | error error => exact absurd h nofun

/-- Without errors a group is in both parts or in neither. -/
theorem LoadedGroups.Exact.whole {loaded : LoadedGroups} (h : client.Answers groupIds listErrors describe)
    (hexact : loaded.Exact client groupIds listErrors describe) (herrors : loaded.errors = []) :
    ∀ groupId ∈ groupIds,
      if client.hides describe groupId then
        ¬ loaded.Describes groupId ∧ ¬ loaded.HasOffsets groupId
      else loaded.Describes groupId ∧ loaded.HasOffsets groupId := by
  intro groupId hmem
  rw [hexact.errors_eq, List.append_eq_nil_iff, List.append_eq_nil_iff,
    List.filterMap_eq_nil_iff, List.filterMap_eq_nil_iff] at herrors
  split_ifs with hhides
  · constructor
    · rintro ⟨description, hdescription, rfl⟩
      rw [hexact.descriptions_eq] at hdescription
      obtain ⟨other, hother, hdescribe⟩ := List.mem_filterMap.mp hdescription
      obtain ⟨hlisted, hshown⟩ := List.mem_filter.mp hother
      rw [h.groupId_eq other hlisted description (ok_of_toOption hdescribe)] at hhides
      simp [hhides] at hshown
    · rintro ⟨partitions, hpartitions⟩
      rw [hexact.offsets_eq] at hpartitions
      obtain ⟨other, hother, hfound⟩ := List.mem_filterMap.mp hpartitions
      obtain ⟨_, _, ⟨⟩⟩ := Option.map_eq_some_iff.mp hfound
      simp [hhides] at hother
  · have hshown : groupId ∈ groupIds.filter (!client.hides describe ·) := by simp [hmem, hhides]
    rw [GroupClient.hides, Bool.or_eq_true, not_or, Bool.not_eq_true, Bool.not_eq_true] at hhides
    obtain ⟨description, hdescribe⟩ := toOption_of_read hhides.1 (herrors.1.2 groupId hmem)
    obtain ⟨partitions, hoffsets⟩ := toOption_of_read hhides.2 (herrors.2 groupId hmem)
    refine ⟨⟨description, ?_, h.groupId_eq groupId hmem description (ok_of_toOption hdescribe)⟩,
      partitions, ?_⟩
    · rw [hexact.descriptions_eq]
      exact List.mem_filterMap.mpr ⟨groupId, hshown, hdescribe⟩
    · rw [hexact.offsets_eq]
      exact List.mem_filterMap.mpr ⟨groupId, hshown, by rw [hoffsets]; rfl⟩

/-- One load finds exactly the groups that both stages could read, and reports what else failed. -/
theorem loadGroups_exact (h : client.Answers groupIds listErrors describe)
    (hdistinct : groupIds.Nodup) :
    ∃ loaded, loadGroups client = .ok loaded ∧ loaded.Exact client groupIds listErrors describe ∧
      (loaded.errors = [] → ∀ groupId ∈ groupIds,
        if client.hides describe groupId then
          ¬ loaded.Describes groupId ∧ ¬ loaded.HasOffsets groupId
        else loaded.Describes groupId ∧ loaded.HasOffsets groupId) := by
  obtain ⟨loaded, hload, hexact⟩ := loadGroups_eq h hdistinct
  exact ⟨loaded, hload, hexact, hexact.whole h⟩

/-- What is loaded describes each group once, as `apply_groups` takes it. -/
theorem LoadedGroups.Exact.snapshot_nodup {loaded : LoadedGroups}
    (h : client.Answers groupIds listErrors describe) (hdistinct : groupIds.Nodup)
    (hexact : loaded.Exact client groupIds listErrors describe) :
    (loaded.snapshot.descriptions.map (·.groupId)).Nodup := by
  rw [snapshot, hexact.descriptions_eq, List.map_filterMap]
  refine List.Nodup.sublist (Dictionary.filterMap_sublist_map (g := id) ?_) ?_
  · intro groupId hmem id hid
    obtain ⟨description, hdescribe, rfl⟩ := Option.map_eq_some_iff.mp hid
    exact h.groupId_eq groupId (List.mem_of_mem_filter hmem) description (ok_of_toOption hdescribe)
  · rw [List.map_id]
    exact hdistinct.filter _

end Load

def describedGroup (groupId : Text) : ConsumerGroupDescription where
  groupId := groupId
  partitionAssignor := text "range"
  state := text "STABLE"
  coordinator := none
  members := []

def mixedClient : GroupClient where
  listConsumerGroups := .ok ⟨some [text "a", text "b", text "c"], none⟩
  describeConsumerGroups groupIds :=
    .ok (groupIds.map fun groupId => (groupId, .ok (describedGroup groupId)))
  listConsumerGroupOffsets groupId :=
    if groupId = text "a" then .ok (some [⟨⟨text "orders", 0, 7⟩, none⟩])
    else if groupId = text "b" then .error (KafkaError.raised ⟨groupAuthorizationFailed, []⟩)
    else .ok (some [⟨⟨text "orders", 0, 7⟩, some ⟨-185, []⟩⟩])

def mixedSnapshot : LoadedGroups where
  descriptions := [describedGroup (text "a"), describedGroup (text "c")]
  offsets := [(text "a", [⟨⟨text "orders", 0, 7⟩, none⟩])]
  errors := [KafkaError.raised ⟨-185, []⟩]

theorem loadGroups_exact_mixed :
    loadGroups mixedClient = .ok mixedSnapshot ∧
      mixedSnapshot.Exact mixedClient [text "a", text "b", text "c"] []
        (fun groupId => .ok (describedGroup groupId)) := by
  have hanswers : mixedClient.Answers [text "a", text "b", text "c"] []
      (fun groupId => .ok (describedGroup groupId)) := by
    refine ⟨rfl, rfl, ?_, ?_⟩
    · rintro groupId _ description ⟨⟩
      rfl
    · rintro groupId hmem error (⟨⟨⟩⟩ | herror)
      rw [List.mem_cons, List.mem_cons, List.mem_singleton] at hmem
      rcases hmem with rfl | rfl | rfl <;> cases herror
      rfl
  have hsnapshot : loadGroups mixedClient = .ok mixedSnapshot := by rfl
  obtain ⟨loaded, hload, hexact, -⟩ := loadGroups_exact hanswers (by decide)
  rw [hsnapshot] at hload
  exact ⟨hsnapshot, Except.ok.inj hload ▸ hexact⟩

end Kaskade
