import Kaskade.GroupLoading

/-!
# Offset resets

`GroupService.plan_reset` and `apply_reset`: what is read of the broker to plan the new offset of
each partition, what a plan commits, and which requests are sent for it.
-/

namespace Kaskade

open Python

/-- What a `TopicPartition` is compared by as a key of a request. -/
structure PartitionKey where
  topic : Text
  partition : ℤ
  deriving DecidableEq

inductive OffsetSpec where
  | earliest
  | latest
  /-- The first offset at or after a time in epoch milliseconds. -/
  | forTimestamp (milliseconds : ℤ)

inductive GroupRequest where
  | describeGroup (group : Text)
  | listGroupOffsets (group : Text) (partitions : List PartitionKey)
  | listOffsets (request : List (PartitionKey × OffsetSpec))
  | alterGroupOffsets (group : Text) (partitions : List CommittedOffset)

/-- What the broker answers, through the futures of the client. -/
structure ResetClient where
  /-- The members of the description of a group. -/
  describeGroup : Text → Except RaisedError (Option (List MemberDescription))
  listGroupOffsets : Text → List PartitionKey → Except RaisedError (Option (List CommittedResult))
  listOffsets : List (PartitionKey × OffsetSpec) →
    Except RaisedError (List (PartitionKey × Except RaisedError ℤ))
  alterGroupOffsets : Text → List CommittedOffset → Except RaisedError (Option (List CommittedResult))
  /-- `str(error)`. -/
  errorText : KafkaError → Text

inductive ResetFailure where
  /-- `GroupNotEmptyError`. -/
  | groupNotEmpty (group : Text) (members : ℕ)
  | raised (error : RaisedError)
  /-- A key that a dictionary does not have. -/
  | keyError (key : PartitionKey)
  /-- An index out of a list, or two lists of different lengths. -/
  | misaligned

/-- A call that sends requests, given those that were sent before, and then returns or raises. -/
abbrev Requesting := ExceptT ResetFailure (StateM (List GroupRequest))

def sendRequest {α : Type} (request : GroupRequest) (answer : Except RaisedError α) : Requesting α :=
  ExceptT.mk fun sent =>
    (match answer with | .ok value => .ok value | .error error => .error (.raised error),
      sent ++ [request])

inductive OffsetTarget where
  | earliest
  | latest
  | timestamp
  | offset
  deriving DecidableEq

structure ResetOffsetsCommand where
  group : Text
  topic : Text
  partitions : List ℤ
  target : OffsetTarget
  value : ℤ := 0

structure OffsetReset where
  partition : ℤ
  current : Option ℤ
  new : ℤ

structure OffsetResetPlan where
  group : Text
  topic : Text
  resets : List OffsetReset

structure OffsetResetOutcome where
  partition : ℤ
  offset : ℤ
  error : Option Text

section Service

variable (client : ResetClient)

def ensureEmpty (group : Text) : Requesting Unit := do
  let description ← sendRequest (.describeGroup group) (client.describeGroup group)
  let members := (description.getD []).length
  if members ≠ 0 then throw (.groupNotEmpty group members)

def committedOffsets (group : Text) (partitions : List PartitionKey) : Requesting (List (ℤ × ℤ)) := do
  let result ← sendRequest (.listGroupOffsets group partitions) (client.listGroupOffsets group partitions)
  (result.getD []).foldlM
    (fun committed partition =>
      match partition.error with
      | some error => throw (.raised error.raised)
      | none =>
        return if 0 ≤ partition.offset then
          Dictionary.setItem committed partition.partition partition.offset
        else committed) []

def listOffsets (partitions : List PartitionKey) (spec : OffsetSpec) : Requesting (List ℤ) := do
  let request := Dictionary.ofEntries (partitions.map fun partition => (partition, spec))
  let futures ← sendRequest (.listOffsets request) (client.listOffsets request)
  let entries ← futures.mapM fun
    | (partition, .ok offset) => return (partition, offset)
    | (_, .error error) => throw (.raised error)
  let results := Dictionary.ofEntries entries
  partitions.mapM fun partition =>
    match results.lookup partition with
    | some offset => return offset
    | none => throw (.keyError partition)

/-- `zip(starts, ends, strict=True)`. -/
def zipStrict (starts ends : List ℤ) : Requesting (List (ℤ × ℤ)) :=
  if starts.length = ends.length then return starts.zip ends else throw .misaligned

def targetOffsets (command : ResetOffsetsCommand) (partitions : List PartitionKey) :
    Requesting (List ℤ) := do
  if command.target = .earliest then listOffsets client partitions .earliest
  else
    let latest ← listOffsets client partitions .latest
    match command.target with
    | .timestamp =>
      let found ← listOffsets client partitions (.forTimestamp command.value)
      let pairs ← zipStrict found latest
      -- no record is at or after the time
      return pairs.map fun (offset, last) => if offset = -1 then last else offset
    | .offset =>
      let earliest ← listOffsets client partitions .earliest
      let pairs ← zipStrict earliest latest
      return pairs.map fun (start, last) => min (max command.value start) last
    | _ => return latest

def planReset (command : ResetOffsetsCommand) : Requesting OffsetResetPlan := do
  ensureEmpty client command.group
  let partitions := command.partitions.map fun partition => ⟨command.topic, partition⟩
  let current ← committedOffsets client command.group partitions
  let new ← targetOffsets client command partitions
  let resets ← partitions.zipIdx.mapM fun (partition, index) =>
    match new[index]? with
    | some offset => return ⟨partition.partition, current.lookup partition.partition, offset⟩
    | none => throw .misaligned
  return { group := command.group, topic := command.topic, resets := resets }

def applyReset (plan : OffsetResetPlan) : Requesting (List OffsetResetOutcome) := do
  let request := plan.resets.map fun reset => ⟨plan.topic, reset.partition, reset.new⟩
  let result ← sendRequest (.alterGroupOffsets plan.group request) (client.alterGroupOffsets plan.group request)
  let errors := Dictionary.ofEntries <| (result.getD []).filterMap fun partition =>
    partition.error.map fun error => (partition.partition, client.errorText error)
  return plan.resets.map fun reset => ⟨reset.partition, reset.new, errors.lookup reset.partition⟩

end Service

def Returns {α : Type} (call : Requesting α) (value : α) (requests : List GroupRequest) : Prop :=
  ∀ sent, call.run sent = (.ok value, sent ++ requests)

def Raises {α : Type} (call : Requesting α) (failure : ResetFailure) (requests : List GroupRequest) :
    Prop :=
  ∀ sent, call.run sent = (.error failure, sent ++ requests)

section Calls

variable {α β : Type}

theorem returns_pure (value : α) : Returns (pure value) value [] := by
  intro sent
  rw [List.append_nil]
  rfl

theorem Returns.bind {call : Requesting α} {value : α} {requests : List GroupRequest}
    (h : Returns call value requests) {next : α → Requesting β} {result : β}
    {further : List GroupRequest} (h' : Returns (next value) result further) :
    Returns (call >>= next) result (requests ++ further) := by
  intro sent
  have hbind : (call >>= next).run sent =
      ExceptT.bindCont next (call.run sent).1 (call.run sent).2 := rfl
  rw [hbind, h sent, ← List.append_assoc]
  exact h' (sent ++ requests)

theorem Returns.bind_silent {call : Requesting α} {value : α} {requests : List GroupRequest}
    (h : Returns call value requests) {next : α → Requesting β} {result : β}
    (h' : Returns (next value) result []) : Returns (call >>= next) result requests :=
  List.append_nil requests ▸ h.bind h'

theorem Raises.bind {call : Requesting α} {failure : ResetFailure} {requests : List GroupRequest}
    (h : Raises call failure requests) (next : α → Requesting β) :
    Raises (call >>= next) failure requests := by
  intro sent
  have hbind : (call >>= next).run sent =
      ExceptT.bindCont next (call.run sent).1 (call.run sent).2 := rfl
  rw [hbind, h sent]
  rfl

theorem returns_sendRequest (request : GroupRequest) (value : α) :
    Returns (sendRequest request (.ok value)) value [request] := fun _ => rfl

/-- A loop that computes one value for each item without a request. -/
theorem returns_mapM {f : α → Requesting β} {g : α → β} {items : List α}
    (h : ∀ item ∈ items, Returns (f item) (g item) []) : Returns (items.mapM f) (items.map g) [] := by
  induction items with
  | nil => exact returns_pure []
  | cons item items ih =>
    rw [List.mapM_cons]
    have hitem := h item List.mem_cons_self
    have hitems := ih fun other hother => h other (List.mem_cons_of_mem _ hother)
    exact hitem.bind (hitems.bind (returns_pure _))

theorem returns_foldlM {f : β → α → Requesting β} {g : β → α → β} {items : List α}
    (h : ∀ state, ∀ item ∈ items, Returns (f state item) (g state item) []) (state : β) :
    Returns (items.foldlM f state) (items.foldl g state) [] := by
  induction items generalizing state with
  | nil => exact returns_pure state
  | cons item items ih =>
    rw [List.foldlM_cons, List.foldl_cons]
    exact (h state item List.mem_cons_self).bind
      (ih (fun state other hother => h state other (List.mem_cons_of_mem _ hother)) _)

end Calls

/-- What the broker holds for the partitions of the topic. -/
structure BrokerOffsets where
  /-- The committed offsets of the group. -/
  committed : ℤ → Option ℤ
  earliest : ℤ → ℤ
  latest : ℤ → ℤ
  /-- The first offset at or after a time, or -1. -/
  atTime : ℤ → ℤ → ℤ
  /-- The partitions for which it rejects a commit. -/
  rejected : ℤ → Option KafkaError

def BrokerOffsets.offset (broker : BrokerOffsets) : OffsetSpec → ℤ → ℤ
  | .earliest => broker.earliest
  | .latest => broker.latest
  | .forTimestamp milliseconds => broker.atTime milliseconds

def ResetOffsetsCommand.keys (command : ResetOffsetsCommand) : List PartitionKey :=
  command.partitions.map fun partition => ⟨command.topic, partition⟩

/-- The client answers each request for the partitions of the command with what the broker holds,
in whatever order. -/
structure ResetClient.Answers (client : ResetClient) (command : ResetOffsetsCommand)
    (broker : BrokerOffsets) : Prop where
  commits : ∃ results, client.listGroupOffsets command.group command.keys = .ok results ∧
    ((results.getD []).map (·.partition)).Nodup ∧ (∀ result ∈ results.getD [], result.error = none) ∧
    ∀ partition ∈ command.partitions, ∀ offset, broker.committed partition = some offset ↔
      0 ≤ offset ∧ ∃ result ∈ results.getD [], result.partition = partition ∧ result.offset = offset
  lists : ∀ spec, ∃ futures,
    client.listOffsets (command.keys.map fun key => (key, spec)) = .ok futures ∧
      futures.Perm (command.keys.map fun key => (key, .ok (broker.offset spec key.partition)))
  alters : ∀ request : List CommittedOffset, request.map (·.partition) = command.partitions →
    ∃ results, client.alterGroupOffsets command.group request = .ok (some results) ∧
      results.Perm (request.map fun commit => ⟨commit, broker.rejected commit.partition⟩)
  earliest_le : ∀ partition ∈ command.partitions, broker.earliest partition ≤ broker.latest partition
  atTime_mem : ∀ partition ∈ command.partitions, ∀ milliseconds,
    broker.atTime milliseconds partition = -1 ∨
      broker.earliest partition ≤ broker.atTime milliseconds partition ∧
        broker.atTime milliseconds partition ≤ broker.latest partition

def BrokerOffsets.Means (broker : BrokerOffsets) (command : ResetOffsetsCommand) (partition new : ℤ) :
    Prop :=
  match command.target with
  | .earliest => new = broker.earliest partition
  | .latest => new = broker.latest partition
  | .timestamp =>
    (broker.atTime command.value partition = -1 ∧ new = broker.latest partition) ∨
      (broker.atTime command.value partition ≠ -1 ∧ new = broker.atTime command.value partition)
  | .offset =>
    (command.value < broker.earliest partition ∧ new = broker.earliest partition) ∨
      (broker.latest partition < command.value ∧ new = broker.latest partition) ∨
      (broker.earliest partition ≤ command.value ∧ command.value ≤ broker.latest partition ∧
        new = command.value)

/-- The plan has one reset for each partition of the command. -/
structure OffsetResetPlan.Meets (plan : OffsetResetPlan) (command : ResetOffsetsCommand)
    (broker : BrokerOffsets) : Prop where
  group_eq : plan.group = command.group
  topic_eq : plan.topic = command.topic
  partitions_eq : plan.resets.map (·.partition) = command.partitions
  current_eq : ∀ reset ∈ plan.resets, reset.current = broker.committed reset.partition
  means : ∀ reset ∈ plan.resets, broker.Means command reset.partition reset.new
  within : ∀ reset ∈ plan.resets,
    broker.earliest reset.partition ≤ reset.new ∧ reset.new ≤ broker.latest reset.partition

section Reset

variable {client : ResetClient} {command : ResetOffsetsCommand} {broker : BrokerOffsets}

theorem keys_nodup (hdistinct : command.partitions.Nodup) : command.keys.Nodup :=
  hdistinct.map fun _ _ h => (PartitionKey.mk.inj h).2

/-- The offsets come in the order of the partitions, whatever the order of the answer. -/
theorem returns_listOffsets (h : client.Answers command broker) (hdistinct : command.partitions.Nodup)
    (spec : OffsetSpec) :
    Returns (listOffsets client command.keys spec) (command.partitions.map (broker.offset spec))
      [.listOffsets (command.keys.map fun key => (key, spec))] := by
  obtain ⟨futures, hanswer, hperm⟩ := h.lists spec
  have hkeys := keys_nodup hdistinct
  have hrequest : Dictionary.ofEntries (command.keys.map fun key => (key, spec)) =
      command.keys.map fun key => (key, spec) := by
    apply Dictionary.ofEntries_eq
    rwa [List.map_map, Function.comp_def, List.map_id']
  have hfutures : Returns (futures.mapM fun
      | (partition, .ok offset) => return (partition, offset)
      | (_, .error error) => throw (.raised error))
      (futures.map fun future => (future.1, broker.offset spec future.1.partition)) [] := by
    apply returns_mapM
    intro future hfuture
    obtain ⟨key, -, rfl⟩ := List.mem_map.mp (hperm.subset hfuture)
    exact returns_pure _
  have hentries : (futures.map fun future => (future.1, broker.offset spec future.1.partition)).Perm
      (command.keys.map fun key => (key, broker.offset spec key.partition)) := by
    have h := hperm.map fun future => (future.1, broker.offset spec future.1.partition)
    rwa [List.map_map] at h
  have hdistinct' : ((futures.map fun future =>
      (future.1, broker.offset spec future.1.partition)).map Prod.fst).Nodup := by
    rw [(hentries.map Prod.fst).nodup_iff, List.map_map, Function.comp_def, List.map_id']
    exact hkeys
  have hlookups : Returns (command.keys.mapM fun partition =>
      match (Dictionary.ofEntries (futures.map fun future =>
        (future.1, broker.offset spec future.1.partition))).lookup partition with
      | some offset => return offset
      | none => throw (.keyError partition))
      (command.keys.map fun key => broker.offset spec key.partition) [] := by
    apply returns_mapM
    intro key hkey
    rw [Dictionary.ofEntries_eq hdistinct', (Dictionary.lookup_eq_some_iff hdistinct').mpr
      (hentries.mem_iff.mpr (List.mem_map.mpr ⟨key, hkey, rfl⟩))]
    exact returns_pure _
  have hresults : command.keys.map (fun key => broker.offset spec key.partition) =
      command.partitions.map (broker.offset spec) := by
    rw [ResetOffsetsCommand.keys, List.map_map]
    rfl
  rw [listOffsets, hrequest, hanswer, ← hresults]
  exact (returns_sendRequest _ futures).bind_silent (hfutures.bind hlookups)

theorem returns_committedOffsets (h : client.Answers command broker) :
    ∃ committed, Returns (committedOffsets client command.group command.keys) committed
        [.listGroupOffsets command.group command.keys] ∧
      ∀ partition ∈ command.partitions, committed.lookup partition = broker.committed partition := by
  obtain ⟨results, hanswer, hdistinct, haccepted, hcommitted⟩ := h.commits
  let entries := ((results.getD []).filter (0 ≤ ·.offset)).map fun result =>
    (result.partition, result.offset)
  have hentries : (entries.map Prod.fst).Nodup := by
    rw [List.map_map]
    exact (List.filter_sublist.map _).nodup hdistinct
  have hfold : (results.getD []).foldl (fun committed (result : CommittedResult) =>
      if 0 ≤ result.offset then Dictionary.setItem committed result.partition result.offset
      else committed) [] = entries := by
    rw [← Dictionary.ofEntries_eq hentries, Dictionary.ofEntries, List.foldl_map, List.foldl_filter]
    simp only [decide_eq_true_eq]
  refine ⟨entries, ?_, ?_⟩
  · rw [committedOffsets, hanswer, ← hfold]
    refine (returns_sendRequest _ results).bind_silent (returns_foldlM ?_ [])
    intro committed result hresult
    rw [haccepted result hresult]
    exact returns_pure _
  · intro partition hpartition
    apply Option.ext
    intro offset
    rw [Dictionary.lookup_eq_some_iff hentries, hcommitted partition hpartition]
    simp only [entries, List.mem_map, List.mem_filter, decide_eq_true_eq, Prod.mk.injEq]
    constructor
    · rintro ⟨result, ⟨hmem, hnonneg⟩, rfl, rfl⟩
      exact ⟨hnonneg, result, hmem, rfl, rfl⟩
    · rintro ⟨hnonneg, result, hmem, rfl, rfl⟩
      exact ⟨result, ⟨hmem, hnonneg⟩, rfl, rfl⟩

theorem returns_zipStrict (starts ends : ℤ → ℤ) (partitions : List ℤ) :
    Returns (zipStrict (partitions.map starts) (partitions.map ends))
      (partitions.map fun partition => (starts partition, ends partition)) [] := by
  rw [zipStrict, if_pos (by rw [List.length_map, List.length_map]), List.zip_map']
  exact returns_pure _

/-- The new offsets mean the target of the command and are within the range of the partition. -/
theorem returns_targetOffsets (h : client.Answers command broker)
    (hdistinct : command.partitions.Nodup) :
    ∃ new requests, Returns (targetOffsets client command command.keys)
        (command.partitions.map new) requests ∧
      ∀ partition ∈ command.partitions, broker.Means command partition (new partition) ∧
        broker.earliest partition ≤ new partition ∧ new partition ≤ broker.latest partition := by
  have hearliest := returns_listOffsets h hdistinct .earliest
  have hlatest := returns_listOffsets h hdistinct .latest
  have hfound := returns_listOffsets h hdistinct (.forTimestamp command.value)
  rw [targetOffsets]
  cases htarget : command.target with
  | earliest =>
    refine ⟨_, _, hearliest, fun partition hpartition => ⟨?_, le_rfl, h.earliest_le partition hpartition⟩⟩
    simp only [BrokerOffsets.Means, htarget, BrokerOffsets.offset]
  | latest =>
    refine ⟨_, _, hlatest.bind_silent (returns_pure _), fun partition hpartition =>
      ⟨?_, h.earliest_le partition hpartition, le_rfl⟩⟩
    simp only [BrokerOffsets.Means, htarget, BrokerOffsets.offset]
  | timestamp =>
    refine ⟨fun partition => if broker.atTime command.value partition = -1 then broker.latest partition
      else broker.atTime command.value partition, _,
      hlatest.bind (hfound.bind ((returns_zipStrict _ _ _).bind_silent ?_)), ?_⟩
    · rw [List.map_map]
      exact returns_pure _
    · intro partition hpartition
      simp only [BrokerOffsets.Means, htarget]
      split_ifs with hnone
      · exact ⟨.inl ⟨hnone, rfl⟩, h.earliest_le partition hpartition, le_rfl⟩
      · exact ⟨.inr ⟨hnone, rfl⟩, (h.atTime_mem partition hpartition _).resolve_left hnone⟩
  | offset =>
    refine ⟨fun partition =>
      min (max command.value (broker.earliest partition)) (broker.latest partition), _,
      hlatest.bind (hearliest.bind ((returns_zipStrict _ _ _).bind_silent ?_)), ?_⟩
    · rw [List.map_map]
      exact returns_pure _
    · intro partition hpartition
      have hrange := h.earliest_le partition hpartition
      simp only [BrokerOffsets.Means, htarget]
      omega

theorem returns_resets (new : ℤ → ℤ) (committed : List (ℤ × ℤ)) :
    Returns (command.keys.zipIdx.mapM fun (partition, index) =>
        match (command.partitions.map new)[index]? with
        | some offset =>
          return (⟨partition.partition, committed.lookup partition.partition, offset⟩ : OffsetReset)
        | none => throw .misaligned)
      (command.partitions.map fun partition =>
        ⟨partition, committed.lookup partition, new partition⟩) [] := by
  have hmap : command.partitions.map (fun partition =>
      (⟨partition, committed.lookup partition, new partition⟩ : OffsetReset)) =
      command.keys.zipIdx.map fun item =>
        ⟨item.1.partition, committed.lookup item.1.partition, new item.1.partition⟩ := by
    have hkeys := congrArg (List.map fun key : PartitionKey =>
      (⟨key.partition, committed.lookup key.partition, new key.partition⟩ : OffsetReset))
      (List.zipIdx_map_fst 0 command.keys)
    rw [List.map_map, ResetOffsetsCommand.keys, List.map_map] at hkeys
    exact hkeys.symm
  rw [hmap]
  apply returns_mapM
  rintro ⟨key, index⟩ hitem
  -- the two lists are aligned
  have hkey : command.keys[index]? = some key := List.mem_zipIdx_iff_getElem?.mp hitem
  rw [ResetOffsetsCommand.keys, List.getElem?_map, Option.map_eq_some_iff] at hkey
  obtain ⟨partition, hpartition, rfl⟩ := hkey
  simp only [List.getElem?_map, hpartition, Option.map_some]
  exact returns_pure _

theorem returns_ensureEmpty {group : Text} {members : Option (List MemberDescription)}
    (hmembers : client.describeGroup group = .ok members) (hempty : members.getD [] = []) :
    Returns (ensureEmpty client group) () [.describeGroup group] := by
  rw [ensureEmpty, hmembers]
  refine (returns_sendRequest _ members).bind_silent ?_
  rw [hempty]
  exact returns_pure ()

/-- A group without active members gets a plan that meets the command. -/
theorem returns_planReset (h : client.Answers command broker) (hdistinct : command.partitions.Nodup)
    {members : Option (List MemberDescription)}
    (hmembers : client.describeGroup command.group = .ok members) (hempty : members.getD [] = []) :
    ∃ plan requests, Returns (planReset client command) plan requests ∧ plan.Meets command broker := by
  obtain ⟨committed, hcommitted, hcurrent⟩ := returns_committedOffsets h
  obtain ⟨new, requests, hnew, hmeans⟩ := returns_targetOffsets h hdistinct
  let plan : OffsetResetPlan :=
    { group := command.group, topic := command.topic
      resets := command.partitions.map fun partition =>
        ⟨partition, committed.lookup partition, new partition⟩ }
  have hreturns : Returns (planReset client command) plan _ :=
    (returns_ensureEmpty hmembers hempty).bind (hcommitted.bind (hnew.bind
      ((returns_resets new committed).bind_silent (returns_pure plan))))
  refine ⟨plan, _, hreturns, rfl, rfl, ?_, ?_, ?_, ?_⟩
  · rw [List.map_map, Function.comp_def, List.map_id']
  all_goals
    intro reset hreset
    obtain ⟨partition, hpartition, rfl⟩ := List.mem_map.mp hreset
  · exact hcurrent partition hpartition
  · exact (hmeans partition hpartition).1
  · exact (hmeans partition hpartition).2

/-- A plan is committed as it is, and the partitions that the broker rejects are reported. -/
theorem returns_applyReset (h : client.Answers command broker) (hdistinct : command.partitions.Nodup)
    {plan : OffsetResetPlan} (hplan : plan.Meets command broker) :
    Returns (applyReset client plan)
      (plan.resets.map fun reset =>
        ⟨reset.partition, reset.new, (broker.rejected reset.partition).map client.errorText⟩)
      [.alterGroupOffsets command.group
        (plan.resets.map fun reset => ⟨command.topic, reset.partition, reset.new⟩)] := by
  let request : List CommittedOffset :=
    plan.resets.map fun reset => ⟨command.topic, reset.partition, reset.new⟩
  have hrequest : request.map (·.partition) = command.partitions := by
    rw [← hplan.partitions_eq, List.map_map]
    rfl
  obtain ⟨results, hanswer, hperm⟩ := h.alters request hrequest
  let errors : List (ℤ × Text) := results.filterMap fun partition =>
    partition.error.map fun error => (partition.partition, client.errorText error)
  have hkeys : (errors.map Prod.fst).Nodup := by
    have hpartitions : (results.map (·.partition)).Nodup := by
      rw [(hperm.map (·.partition)).nodup_iff, List.map_map]
      exact hrequest ▸ hdistinct
    refine List.Nodup.sublist ?_ hpartitions
    rw [List.map_filterMap]
    apply Dictionary.filterMap_sublist_map
    intro result _ partition hpartition
    rw [Option.map_map] at hpartition
    obtain ⟨_, -, rfl⟩ := Option.map_eq_some_iff.mp hpartition
    rfl
  have herrors : ∀ reset ∈ plan.resets,
      errors.lookup reset.partition = (broker.rejected reset.partition).map client.errorText := by
    intro reset hreset
    apply Option.ext
    intro message
    rw [Dictionary.lookup_eq_some_iff hkeys]
    simp only [errors, List.mem_filterMap, hperm.mem_iff, request, List.map_map, List.mem_map,
      Option.map_eq_some_iff, Prod.mk.injEq]
    constructor
    · rintro ⟨_, ⟨other, hother, rfl⟩, error, herror, hpartition, rfl⟩
      exact ⟨error, hpartition ▸ herror, rfl⟩
    · rintro ⟨error, herror, rfl⟩
      exact ⟨_, ⟨reset, hreset, rfl⟩, error, herror, rfl, rfl⟩
  have houtcomes : plan.resets.map (fun reset =>
      (⟨reset.partition, reset.new, (broker.rejected reset.partition).map client.errorText⟩ :
        OffsetResetOutcome)) =
      plan.resets.map fun reset =>
        ⟨reset.partition, reset.new, (Dictionary.ofEntries errors).lookup reset.partition⟩ := by
    rw [Dictionary.ofEntries_eq hkeys]
    exact List.map_congr_left fun reset hreset => by rw [herrors reset hreset]
  rw [applyReset, hplan.group_eq, hplan.topic_eq, hanswer, houtcomes]
  exact (returns_sendRequest _ (some results)).bind_silent (returns_pure _)

theorem raises_ensureEmpty {group : Text} {members : Option (List MemberDescription)}
    (hmembers : client.describeGroup group = .ok members) (hactive : members.getD [] ≠ []) :
    Raises (ensureEmpty client group) (.groupNotEmpty group (members.getD []).length)
      [.describeGroup group] := by
  have hlength : (members.getD []).length ≠ 0 := fun h => hactive (List.length_eq_zero_iff.mp h)
  intro sent
  have hbind : (ensureEmpty client group).run sent =
      (if (members.getD []).length ≠ 0 then
        throw (.groupNotEmpty group (members.getD []).length) else pure () : Requesting Unit).run
        (sent ++ [.describeGroup group]) := by
    rw [ensureEmpty, hmembers]
    rfl
  rw [hbind, if_pos hlength]
  rfl

/-- Each partition gets the offset that the target means for it, and the plan is what is committed;
a group with active members is refused before any offset is read. -/
theorem reset_result (command : ResetOffsetsCommand) (hdistinct : command.partitions.Nodup)
    (broker : BrokerOffsets) (members : Option (List MemberDescription))
    (hmembers : client.describeGroup command.group = .ok members) :
    (members.getD [] = [] → client.Answers command broker →
      ∃ plan requests, Returns (planReset client command) plan requests ∧ plan.Meets command broker ∧
        Returns (applyReset client plan)
          (plan.resets.map fun reset =>
            ⟨reset.partition, reset.new, (broker.rejected reset.partition).map client.errorText⟩)
          [.alterGroupOffsets command.group
            (plan.resets.map fun reset => ⟨command.topic, reset.partition, reset.new⟩)]) ∧
    (members.getD [] ≠ [] → Raises (planReset client command)
      (.groupNotEmpty command.group (members.getD []).length) [.describeGroup command.group]) := by
  constructor
  · intro hempty h
    obtain ⟨plan, requests, hreturns, hplan⟩ := returns_planReset h hdistinct hmembers hempty
    exact ⟨plan, requests, hreturns, hplan, returns_applyReset h hdistinct hplan⟩
  · exact fun hactive => (raises_ensureEmpty hmembers hactive).bind _

end Reset

def ordersBroker : BrokerOffsets where
  committed partition := if partition = 0 then some 7 else none
  earliest partition := if partition = 0 then 2 else 3
  latest partition := if partition = 0 then 10 else 20
  atTime _ partition := if partition = 0 then 5 else -1
  rejected partition := if partition = 1 then some ⟨29, text "denied"⟩ else none

def ordersClient : ResetClient where
  describeGroup _ := .ok none
  listGroupOffsets _ partitions :=
    .ok (some (partitions.reverse.map fun key =>
      ⟨⟨key.topic, key.partition, (ordersBroker.committed key.partition).getD offsetInvalid⟩, none⟩))
  listOffsets request :=
    .ok (request.reverse.map fun (key, spec) => (key, .ok (ordersBroker.offset spec key.partition)))
  alterGroupOffsets _ request :=
    .ok (some (request.reverse.map fun commit => ⟨commit, ordersBroker.rejected commit.partition⟩))
  errorText error := error.reason

def ordersReset : ResetOffsetsCommand where
  group := text "billing"
  topic := text "orders"
  partitions := [0, 1]
  target := .timestamp
  value := 1700000000000

theorem ordersClient_answers : ordersClient.Answers ordersReset ordersBroker where
  commits := by
    refine ⟨_, rfl, by decide, by simp [ordersReset, ResetOffsetsCommand.keys], ?_⟩
    intro partition hpartition offset
    have hcases : partition = 0 ∨ partition = 1 := by simpa [ordersReset] using hpartition
    rcases hcases with rfl | rfl
    · simp [ordersBroker, ordersReset, ResetOffsetsCommand.keys]
      omega
    · simp [ordersBroker, ordersReset, ResetOffsetsCommand.keys, offsetInvalid]
      omega
  lists spec := by
    refine ⟨_, rfl, ?_⟩
    rw [← List.map_reverse, List.map_map]
    exact (List.reverse_perm _).map _
  alters request _ := ⟨_, rfl, (List.reverse_perm request).map _⟩
  earliest_le := by decide
  atTime_mem partition hpartition milliseconds := by
    have hcases : partition = 0 ∨ partition = 1 := by simpa [ordersReset] using hpartition
    rcases hcases with rfl | rfl
    · exact .inr (by simp [ordersBroker])
    · exact .inl rfl

theorem reset_result_orders :
    ∃ plan requests, Returns (planReset ordersClient ordersReset) plan requests ∧
      plan.Meets ordersReset ordersBroker ∧
        Returns (applyReset ordersClient plan)
          (plan.resets.map fun reset =>
            ⟨reset.partition, reset.new,
              (ordersBroker.rejected reset.partition).map ordersClient.errorText⟩)
          [.alterGroupOffsets ordersReset.group
            (plan.resets.map fun reset => ⟨ordersReset.topic, reset.partition, reset.new⟩)] :=
  (reset_result ordersReset (by decide) ordersBroker none rfl).1 rfl ordersClient_answers

end Kaskade
