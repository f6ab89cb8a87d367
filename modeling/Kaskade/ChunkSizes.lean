import Kaskade.ConsumerRecords
import Kaskade.RecordTables
import Kaskade.Runs

/-!
# Chunk sizes

How many records `ListRecords` requests with each call of `consume()`. The size is kept in the
consumer, which a filter change replaces by one that is built from the settings.
-/

namespace Kaskade

/-- The page size of a `ConsumerService` that is built from the settings. -/
def defaultPageSize : ℕ := 25

/-- A consumer as `ListRecords` sees it. -/
structure PagedConsumer where
  pageSize : ℕ := defaultPageSize
  deriving DecidableEq

def RecordFilters.active (filters : RecordFilters) : Bool :=
  filters.key ≠ [] || filters.value ≠ [] || filters.partition.isSome || filters.header ≠ []

/-- The screens that `ListRecords` opens. -/
inductive RecordsScreen where
  | filterRecords
  | chunkSize (current : ℕ)
  deriving DecidableEq

/-- Where a worker of the group `records-consume` stands. -/
inductive RecordsWorker where
  /-- `replace_consumer`, before it builds the consumer. -/
  | replacing
  /-- `replace_consumer`, while the previous consumer closes. -/
  | closing (previous : PagedConsumer)
  /-- `consume_records`, before it calls `consume()`. -/
  | starting
  /-- `consume_records`, while `consume()` runs. -/
  | consuming
  deriving DecidableEq

/-- What `ListRecords` holds of its consumer. -/
structure ConsumingList where
  consumer : PagedConsumer := {}
  filters : RecordFilters := {}
  isConsuming : Bool := false
  screens : List RecordsScreen := []
  workers : List RecordsWorker := []
  /-- The sizes of the pages that `consume()` was called for. -/
  requests : List ℕ := []
  /-- The exceptions that left a worker. -/
  escaped : List PyException := []

/-- The actions of the user, and the steps of the workers with what their calls return or raise. -/
inductive RecordsAction where
  | consume
  | changeChunk
  | chooseChunk (current : ℕ) (result : Option ℕ)
  | filter
  | chooseFilters (result : Option RecordFilters)
  | showAll
  | buildConsumer (result : Except PyException Unit)
  | closePrevious (previous : PagedConsumer) (result : Except PyException Unit)
  | callConsume
  | receivePage (result : Except PyException Unit)

namespace ConsumingList

def actionConsume (list : ConsumingList) : ConsumingList :=
  if list.isConsuming then list
  else { list with isConsuming := true, workers := .starting :: list.workers }

def startFilter (list : ConsumingList) : ConsumingList :=
  { list with isConsuming := true, workers := .replacing :: list.workers }

/-- The `except` and `finally` of `replace_consumer`, and what follows them. -/
def finishReplacing (list : ConsumingList) : Except PyException Unit → ConsumingList
  | .ok () => actionConsume { list with isConsuming := false }
  | .error e =>
    if e.isInstance consumerExceptions then actionConsume { list with isConsuming := false }
    else { list with isConsuming := false, escaped := list.escaped ++ [e] }

/-- The `except` and `finally` of `consume_records`. -/
def finishConsuming (list : ConsumingList) : Except PyException Unit → ConsumingList
  | .ok () => { list with isConsuming := false }
  | .error e =>
    if e.isInstance consumerExceptions then { list with isConsuming := false }
    else { list with isConsuming := false, escaped := list.escaped ++ [e] }

/-- What an action makes of the list, unless it is disabled. A screen keeps the other actions from
the user while it is open; that is not needed here. -/
def step (list : ConsumingList) : RecordsAction → Option ConsumingList
  | .consume => if list.isConsuming then none else some list.actionConsume
  | .changeChunk =>
    if list.isConsuming then none
    else some { list with screens := .chunkSize list.consumer.pageSize :: list.screens }
  | .chooseChunk current result =>
    if list.screens.contains (.chunkSize current) then
      let list := { list with screens := list.screens.erase (.chunkSize current) }
      match result with
      | none => some list
      | some size => some { list with consumer := { list.consumer with pageSize := size } }
    else none
  | .filter =>
    if list.isConsuming then none else some { list with screens := .filterRecords :: list.screens }
  | .chooseFilters result =>
    if list.screens.contains .filterRecords then
      let list := { list with screens := list.screens.erase .filterRecords }
      match result with
      | none => some list
      | some filters => some (startFilter { list with filters := filters })
    else none
  | .showAll =>
    if list.isConsuming || !list.filters.active then none
    else some (startFilter { list with filters := {} })
  | .buildConsumer result =>
    if list.workers.contains .replacing then
      let list := { list with workers := list.workers.erase .replacing }
      match result with
      | .ok () => some { list with consumer := {}, workers := .closing list.consumer :: list.workers }
      | .error e => some (finishReplacing list (.error e))
    else none
  | .closePrevious previous result =>
    if list.workers.contains (.closing previous) then
      some (finishReplacing { list with workers := list.workers.erase (.closing previous) } result)
    else none
  | .callConsume =>
    if list.workers.contains .starting then
      some { list with
        workers := .consuming :: list.workers.erase .starting
        requests := list.requests ++ [list.consumer.pageSize] }
    else none
  | .receivePage result =>
    if list.workers.contains .consuming then
      some (finishConsuming { list with workers := list.workers.erase .consuming } result)
    else none

def Steps (list : ConsumingList) (action : RecordsAction) (list' : ConsumingList) : Prop :=
  list.step action = some list'

end ConsumingList

namespace RecordsAction

def lastChosen (actions : List RecordsAction) : Option ℕ :=
  actions.foldl (fun chosen action =>
    match action with
    | .chooseChunk _ (some size) => some size
    | _ => chosen) none

/-- Whether the consumer was replaced after the last choice of a size. -/
def replacedSince (actions : List RecordsAction) : Bool :=
  actions.foldl (fun replaced action =>
    match action with
    | .chooseChunk _ (some _) => false
    | .buildConsumer (.ok ()) => true
    | _ => replaced) false

theorem lastChosen_concat (actions : List RecordsAction) (action : RecordsAction) :
    lastChosen (actions ++ [action]) =
      match action with
      | .chooseChunk _ (some size) => some size
      | _ => lastChosen actions := by
  rw [lastChosen, List.foldl_append]
  rfl

theorem replacedSince_concat (actions : List RecordsAction) (action : RecordsAction) :
    replacedSince (actions ++ [action]) =
      match action with
      | .chooseChunk _ (some _) => false
      | .buildConsumer (.ok ()) => true
      | _ => replacedSince actions := by
  rw [replacedSince, List.foldl_append]
  rfl

end RecordsAction

namespace ConsumingList

open RecordsAction

@[simp] theorem actionConsume_consumer (list : ConsumingList) :
    list.actionConsume.consumer = list.consumer := by
  rw [actionConsume]
  split_ifs <;> rfl

@[simp] theorem finishReplacing_consumer (list : ConsumingList) (result : Except PyException Unit) :
    (list.finishReplacing result).consumer = list.consumer := by
  cases result with
  | ok _ => exact actionConsume_consumer _
  | error e =>
    rw [finishReplacing]
    split_ifs
    · exact actionConsume_consumer _
    · rfl

@[simp] theorem finishConsuming_consumer (list : ConsumingList) (result : Except PyException Unit) :
    (list.finishConsuming result).consumer = list.consumer := by
  cases result with
  | ok _ => rfl
  | error e =>
    rw [finishConsuming]
    split_ifs <;> rfl

/-- What an action makes of the size of the consumer's pages. -/
def pageSizeAfter (size : ℕ) : RecordsAction → ℕ
  | .chooseChunk _ (some chosen) => chosen
  | .buildConsumer (.ok ()) => defaultPageSize
  | _ => size

theorem Steps.pageSize {list list' : ConsumingList} {action : RecordsAction}
    (h : list.Steps action list') :
    list'.consumer.pageSize = pageSizeAfter list.consumer.pageSize action := by
  rw [Steps] at h
  cases action with
  | consume =>
    simp only [step] at h
    split_ifs at h
    cases h
    exact congrArg _ (actionConsume_consumer list)
  | changeChunk =>
    simp only [step] at h
    split_ifs at h
    cases h
    rfl
  | chooseChunk current result =>
    simp only [step] at h
    split_ifs at h
    cases result <;> cases h <;> rfl
  | filter =>
    simp only [step] at h
    split_ifs at h
    cases h
    rfl
  | chooseFilters result =>
    simp only [step] at h
    split_ifs at h
    cases result <;> cases h <;> rfl
  | showAll =>
    simp only [step] at h
    split_ifs at h
    cases h
    rfl
  | buildConsumer result =>
    simp only [step] at h
    split_ifs at h
    cases result with
    | ok _ =>
      cases h
      rfl
    | error e =>
      cases h
      exact congrArg _ (finishReplacing_consumer _ (.error e))
  | closePrevious previous result =>
    simp only [step] at h
    split_ifs at h
    cases h
    exact congrArg _ (finishReplacing_consumer _ result)
  | callConsume =>
    simp only [step] at h
    split_ifs at h
    cases h
    rfl
  | receivePage result =>
    simp only [step] at h
    split_ifs at h
    cases h
    exact congrArg _ (finishConsuming_consumer _ result)

/-- After a run the consumer has the size that was chosen last, unless it was replaced since. -/
theorem pageSize_run {actions : List RecordsAction} {list : ConsumingList}
    (h : Run Steps {} actions list) :
    list.consumer.pageSize =
      if replacedSince actions then defaultPageSize else (lastChosen actions).getD defaultPageSize := by
  induction h with
  | nil => rfl
  | @snoc actions list list' action hrun hstep ih =>
    rw [hstep.pageSize, ih, replacedSince_concat, lastChosen_concat]
    cases action with
    | chooseChunk current result => cases result <;> rfl
    | buildConsumer result => cases result <;> rfl
    | _ => rfl

/-- A call of `consume()` requests the consumer's page size. -/
theorem Steps.requests {list list' : ConsumingList} (h : list.Steps .callConsume list') :
    list'.requests = list.requests ++ [list.consumer.pageSize] := by
  simp only [Steps, step] at h
  split_ifs at h
  cases h
  rfl

/-- Each call of `consume()` after the choice of a size requests pages of the last chosen size. -/
def RequestsChosen (actions : List RecordsAction) : Prop :=
  ∀ before after list list', actions = before ++ .callConsume :: after →
    Run Steps {} before list → list.Steps .callConsume list' →
    ∀ size, lastChosen before = some size → list'.requests = list.requests ++ [size]

/-- The calls request the chosen size just when no consumer was replaced between the choice and the
call, unless the choice was the default. -/
theorem requestsChosen_iff {actions : List RecordsAction} {final : ConsumingList}
    (h : Run Steps {} actions final) :
    RequestsChosen actions ↔
      ∀ before after, actions = before ++ .callConsume :: after →
        ∀ size, lastChosen before = some size →
          replacedSince before = false ∨ size = defaultPageSize := by
  constructor
  · intro hchosen before after hsplit size hsize
    subst hsplit
    obtain ⟨list, list', hbefore, hcall, -⟩ := h.split
    have hrequests := hchosen before after list list' rfl hbefore hcall size hsize
    rw [hcall.requests, List.append_cancel_left_eq, List.singleton_inj, pageSize_run hbefore,
      hsize, Option.getD_some] at hrequests
    cases hreplaced : replacedSince before with
    | false => exact .inl rfl
    | true =>
      rw [hreplaced, if_pos rfl] at hrequests
      exact .inr hrequests.symm
  · intro hkept before after list list' hsplit hbefore hcall size hsize
    rw [hcall.requests, pageSize_run hbefore, hsize, Option.getD_some]
    rcases hkept before after hsplit size hsize with hreplaced | rfl
    · rw [hreplaced, if_neg Bool.false_ne_true]
    · rw [ite_self]

def chosenThenFiltered : List RecordsAction :=
  [.consume, .callConsume, .receivePage (.ok ()), .changeChunk, .chooseChunk 25 (some 100), .filter,
    .chooseFilters (some {}), .buildConsumer (.ok ()), .closePrevious ⟨100⟩ (.ok ()), .callConsume]

theorem run_chosenThenFiltered : ∃ final, Run Steps {} chosenThenFiltered final := by
  refine ⟨_, .cons rfl <| .cons rfl <| .cons rfl <| .cons rfl <| .cons rfl <| .cons rfl <| .cons rfl <|
    .cons rfl <| .cons rfl <| .cons rfl .nil⟩

theorem requestsChosen_iff_filtered :
    RequestsChosen chosenThenFiltered ↔
      ∀ before after, chosenThenFiltered = before ++ .callConsume :: after →
        ∀ size, lastChosen before = some size →
          replacedSince before = false ∨ size = defaultPageSize := by
  obtain ⟨final, hrun⟩ := run_chosenThenFiltered
  exact requestsChosen_iff hrun

/-- The call after the filter requests the default again. -/
theorem not_requestsChosen_filtered :
    (∃ final, Run Steps {} chosenThenFiltered final) ∧ ¬ RequestsChosen chosenThenFiltered := by
  refine ⟨run_chosenThenFiltered, fun hchosen => ?_⟩
  obtain ⟨final, hrun⟩ := run_chosenThenFiltered
  obtain ⟨list, hbefore, hlast⟩ := (Run.of_concat hrun :
    ∃ list, Run Steps {} chosenThenFiltered.dropLast list ∧ Steps list .callConsume final)
  have hrequests := hchosen chosenThenFiltered.dropLast [] list final rfl hbefore hlast 100 rfl
  rw [hlast.requests, List.append_cancel_left_eq, List.singleton_inj, pageSize_run hbefore] at hrequests
  revert hrequests
  decide

end ConsumingList

end Kaskade
